/-
  PageServer.Proofs.Pass — what the steps of a traversal do to a scene.

  A step is known by `Pass.on`. The equations here say what `on` gives for each way of putting
  steps together and for each step that a traversal is made of; later proofs rewrite with them
  and never open the monad.
-/

import PageServer.Traversal

namespace PageServer

namespace Pass

variable {σ α β : Type} (s : Scene σ)

/-! ## Putting steps together -/

@[simp] theorem on_pure (a : α) : (pure a : Pass σ α).on s = (.ok a, s) := rfl

@[simp] theorem on_throw (e : Failure) : (throw e : Pass σ α).on s = (.error e, s) := rfl

@[simp] theorem on_get : (get : Pass σ (Scene σ)).on s = (.ok s, s) := rfl

@[simp] theorem on_modify (f : Scene σ → Scene σ) : (modify f : Pass σ PUnit).on s = (.ok (), f s) := rfl

@[simp] theorem on_lift (x : Except Failure α) : (lift x : Pass σ α).on s = (x, s) := rfl

@[simp] theorem on_ensuring (p : Pass σ α) (f : Scene σ → Scene σ) :
    (ensuring p f).on s = ((p.on s).1, f (p.on s).2) := rfl

@[simp] theorem on_attempt (p : Pass σ α) : (attempt p).on s = (.ok (p.on s).1, (p.on s).2) := rfl

theorem on_bind (p : Pass σ α) (f : α → Pass σ β) :
    (p >>= f).on s = match p.on s with
      | (.ok a, t) => (f a).on t
      | (.error e, t) => (.error e, t) := by
  show (ExceptT.run (p >>= f)).run s = _
  unfold on
  simp only [ExceptT.run_bind, StateT.run_bind]
  rcases p.run.run s with ⟨_ | a, t⟩ <;> rfl

/-- A step that goes well is a first step that goes well and then a second one. -/
theorem on_bind_eq_ok {p : Pass σ α} {f : α → Pass σ β} {s u : Scene σ} {b : β} :
    (p >>= f).on s = (.ok b, u) ↔ ∃ a t, p.on s = (.ok a, t) ∧ (f a).on t = (.ok b, u) := by
  rw [on_bind]
  rcases h : p.on s with ⟨e | a, t⟩
  · simp
  · constructor
    · intro h'
      exact ⟨a, t, rfl, h'⟩
    · rintro ⟨_, _, h', h''⟩
      cases h'
      exact h''

/-- Steps that only look, one after the other. -/
theorem bind_keeps {p : Pass σ α} {f : α → Pass σ β} {s : Scene σ} (hp : (p.on s).2 = s)
    (hf : ∀ a, ((f a).on s).2 = s) : ((p >>= f).on s).2 = s := by
  rw [on_bind]
  rcases h : p.on s with ⟨_ | a, t⟩ <;> rw [h] at hp <;> cases hp
  · rfl
  · exact hf a

theorem on_below (p : Pass σ α) :
    (below p).on s = ((p.on (s.mapContext Context.down)).1,
      (p.on (s.mapContext Context.down)).2.mapContext Context.up) := by
  rw [below, on_bind]; rfl

theorem on_inForm (p : Pass σ α) :
    (inForm p).on s = ((p.on (s.mapContext (·.withInForm true))).1,
      (p.on (s.mapContext (·.withInForm true))).2.mapContext (·.withInForm false)) := by
  rw [inForm, on_bind]; rfl

@[simp] theorem on_toNext : (toNext : Pass σ Unit).on s = (.ok (), s.mapContext Context.next) := rfl

@[simp] theorem on_write (text : String) :
    (write text : Pass σ Unit).on s = (.ok (), { s with response := s.response.write text }) := rfl

end Pass

/-! ## Scenes -/

def Event.isPerform : Event → Bool
  | .perform .. => true
  | .set .. => false

@[simp] theorem Instance.withoutChild_state {σ : Type} (i : Instance σ) (key : String) :
    (i.withoutChild key).state = i.state := rfl

namespace Scene

variable {σ : Type}

/-- The current component with another state. -/
def withState (s : Scene σ) (x : σ) : Scene σ := s.withCurrent { s.current with state := x }

/-- The current component has performed an action. -/
def acted [Component σ] (s : Scene σ) (name : String) : Scene σ :=
  (s.withState (Component.perform s.current.state name).2).addEvents [.perform s.current.name name]

/-- The template of a definition has been asked for. -/
def compiled (r : Registry σ) (d : Definition σ) (s : Scene σ) : Scene σ :=
  { s with templates := (Templates.get r d s.templates).2 }

/-- The scene with a component out of the current one, on its way to the stack. -/
def without (s : Scene σ) (key : String) : Scene σ := s.withCurrent (s.current.withoutChild key)

/-- A component comes on the stack, out of the one around it. -/
def pushed (s : Scene σ) (key : String) (child : Instance σ) (content : Option Element) :
    Scene σ :=
  { s.without key with frames := ⟨key, child, content⟩ :: (s.without key).frames }

@[simp] theorem addEvents_frames (s : Scene σ) (es : List Event) : (s.addEvents es).frames = s.frames := rfl
@[simp] theorem addEvents_context (s : Scene σ) (es : List Event) : (s.addEvents es).context = s.context := rfl
@[simp] theorem addEvents_templates (s : Scene σ) (es : List Event) :
    (s.addEvents es).templates = s.templates := rfl
@[simp] theorem addEvents_events (s : Scene σ) (es : List Event) : (s.addEvents es).events = s.events ++ es := rfl
@[simp] theorem addEvents_nil (s : Scene σ) : s.addEvents [] = s := by simp [addEvents]
@[simp] theorem current_addEvents (s : Scene σ) (es : List Event) : (s.addEvents es).current = s.current := rfl

@[simp] theorem mapContext_frames (f : Context → Context) (s : Scene σ) : (s.mapContext f).frames = s.frames := rfl
@[simp] theorem mapContext_context (f : Context → Context) (s : Scene σ) :
    (s.mapContext f).context = f s.context := rfl
@[simp] theorem mapContext_templates (f : Context → Context) (s : Scene σ) :
    (s.mapContext f).templates = s.templates := rfl
@[simp] theorem mapContext_events (f : Context → Context) (s : Scene σ) : (s.mapContext f).events = s.events := rfl
@[simp] theorem current_mapContext (f : Context → Context) (s : Scene σ) :
    (s.mapContext f).current = s.current := rfl

@[simp] theorem withCurrent_context (s : Scene σ) (i : Instance σ) : (s.withCurrent i).context = s.context := by
  unfold withCurrent; split <;> rfl
@[simp] theorem withCurrent_templates (s : Scene σ) (i : Instance σ) :
    (s.withCurrent i).templates = s.templates := by
  unfold withCurrent; split <;> rfl
@[simp] theorem withCurrent_events (s : Scene σ) (i : Instance σ) : (s.withCurrent i).events = s.events := by
  unfold withCurrent; split <;> rfl
@[simp] theorem current_withCurrent (s : Scene σ) (i : Instance σ) : (s.withCurrent i).current = i := by
  rcases h : s.frames with _ | ⟨f, rest⟩ <;> simp [withCurrent, current, h]

theorem withCurrent_addEvents (s : Scene σ) (es : List Event) (i : Instance σ) :
    (s.addEvents es).withCurrent i = (s.withCurrent i).addEvents es := by
  unfold withCurrent
  rcases h : s.frames with _ | ⟨f, rest⟩ <;> simp [h] <;> rfl

theorem without_addEvents (s : Scene σ) (es : List Event) (key : String) :
    (s.addEvents es).without key = (s.without key).addEvents es := withCurrent_addEvents _ _ _

@[simp] theorem compiled_frames (r : Registry σ) (d : Definition σ) (s : Scene σ) :
    (s.compiled r d).frames = s.frames := rfl
@[simp] theorem compiled_context (r : Registry σ) (d : Definition σ) (s : Scene σ) :
    (s.compiled r d).context = s.context := rfl
@[simp] theorem compiled_events (r : Registry σ) (d : Definition σ) (s : Scene σ) :
    (s.compiled r d).events = s.events := rfl
@[simp] theorem current_compiled (r : Registry σ) (d : Definition σ) (s : Scene σ) :
    (s.compiled r d).current = s.current := rfl

@[simp] theorem without_context (s : Scene σ) (key : String) : (s.without key).context = s.context :=
  withCurrent_context _ _

end Scene

/-! ## Steps that only look -/

theorem mapError_ok {ε δ α : Type} (f : ε → δ) (a : α) : (Except.ok a : Except ε α).mapError f = .ok a := rfl

namespace Pass

variable {σ α : Type} [Component σ] (s : Scene σ)

@[simp] theorem on_evaluate (hs : Helpers) (b : Binding) :
    (evaluate hs b).on s = ((b.valueIn hs s.current.state).mapError Failure.helper, s) := by
  rw [evaluate, on_bind]
  simp only [on_get]
  cases b.valueIn hs s.current.state <;> rfl

@[simp] theorem on_evaluateText (hs : Helpers) (b : Binding) :
    (evaluateText hs b).on s =
      (((b.valueIn hs s.current.state).mapError Failure.helper).map Value.text, s) := by
  rw [evaluateText, on_bind, on_evaluate]
  cases b.valueIn hs s.current.state <;> rfl

theorem evaluateFlag_keeps (hs : Helpers) (b : Option Binding) (default : Bool) :
    ((evaluateFlag hs b default).on s).2 = s := by
  cases b with
  | none => rfl
  | some b =>
    rw [evaluateFlag, on_bind, on_evaluate]
    cases b.valueIn hs s.current.state <;> rfl

theorem actionName_keeps (hs : Helpers) (b : Binding) : ((actionName hs b).on s).2 = s := by
  cases b <;> simp [actionName]

theorem isShown_keeps (hs : Helpers) (condition : Binding) (negate : Option Binding) :
    ((Control.isShown hs condition negate).on s).2 = s :=
  bind_keeps (evaluateFlag_keeps s hs _ _) fun _ => bind_keeps (evaluateFlag_keeps s hs _ _) fun _ => rfl

theorem listItems_keeps (hs : Helpers) (list : Binding) : ((Control.listItems hs list).on s).2 = s :=
  bind_keeps (by rw [on_evaluate]) fun v => by cases v <;> rfl

theorem on_openContainer (hs : Helpers) (id : Binding) (elementName : Option Binding) :
    (∃ e, (Control.openContainer hs id elementName).on s = (.error e, s)) ∨
    ∃ id' name x, (Control.openContainer hs id elementName).on s =
      (.ok name, { s.mapContext (·.enterContainer id') with response := x }) := by
  rw [Control.openContainer, on_bind, on_evaluateText]
  rcases id.valueIn hs s.current.state with e | v
  · exact .inl ⟨_, rfl⟩
  cases elementName with
  | none => exact .inr ⟨v.text, _, _, rfl⟩
  | some b =>
    simp only [mapError_ok, Except.map, on_bind, on_evaluateText]
    rcases b.valueIn hs s.current.state with e | w
    · exact .inl ⟨_, rfl⟩
    · exact .inr ⟨v.text, w.text, _, rfl⟩

/-! ## Steps that change the current component -/

theorem on_setKey (key : String) (v : Value) :
    (setKey key v).on s = match Component.take s.current.state key v with
      | .ok x => (.ok (), (s.addEvents [.set s.current.name key v]).withState x)
      | .error e => (.error e, s.addEvents [.set s.current.name key v]) := by
  rw [setKey, on_bind]
  simp only [on_get, Instance.set]
  cases Component.take s.current.state key v <;> rfl

theorem on_setPath (p : KeyPath) (v : Value) :
    (setPath p v).on s = match p.rootFor v s.current.state with
      | .ok root => (setKey p.first root).on s
      | .error e => (.error e, s) := by
  rw [setPath, on_bind]
  simp only [on_get]
  cases p.rootFor v s.current.state <;> rfl

/-- A write through a key path that goes well. -/
theorem on_setPath_eq_ok {s t : Scene σ} {p : KeyPath} {v : Value} :
    (setPath p v).on s = (.ok (), t) ↔ ∃ root x, p.rootFor v s.current.state = .ok root ∧
      Component.take s.current.state p.first root = .ok x ∧
      t = (s.addEvents [.set s.current.name p.first root]).withState x := by
  rw [on_setPath]
  rcases p.rootFor v s.current.state with e | root
  · simp
  dsimp only
  rw [on_setKey]
  rcases ht : Component.take s.current.state p.first root with e | x
  · simp [ht]
  · simp [ht, eq_comm]

theorem on_perform (r : Registry σ) (a : Binding) :
    (perform r a).on s = match ((actionName r.helpers a).on s).1 with
      | .error e => (.error e, s)
      | .ok name => match (Component.perform s.current.state name).1 with
        | .error e => (.error e, s.acted name)
        | .ok reply => ((Outcome.ofReply r reply).1, (s.acted name).addEvents (Outcome.ofReply r reply).2) := by
  rw [perform, on_bind]
  have hk := actionName_keeps s r.helpers a
  rcases h : (actionName r.helpers a).on s with ⟨e | name, t⟩
  · rw [h] at hk
    simp [show t = s from hk]
  · rw [h] at hk
    obtain rfl : s = t := hk.symm
    simp only [on_bind, on_get, on_modify, on_lift]
    cases (Component.perform s.current.state name).1 <;> rfl

/-! ## What components are asked to do -/

theorem setAll_sets (values : List (String × Value)) (i : Instance σ) :
    ∀ e ∈ (i.setAll values).2, e.isPerform = false := by
  induction values generalizing i with
  | nil => simp [Instance.setAll]
  | cons kv rest ih =>
    obtain ⟨key, v⟩ := kv
    simp only [Instance.setAll, Instance.set]
    cases Component.take i.state key v with
    | error e => simp [Except.map, Event.isPerform]
    | ok x => simpa [Except.map, Event.isPerform] using ih _

theorem receive_sets (hs : Helpers) (parent : σ) (bs : Bindings) (i : Instance σ) :
    ∀ e ∈ (Instance.receive hs parent bs i).2, e.isPerform = false := by
  induction bs generalizing i with
  | nil => simp [Instance.receive]
  | cons kb rest ih =>
    obtain ⟨key, b⟩ := kb
    simp only [Instance.receive]
    split
    · simp
    · rename_i v _
      simp only [Instance.set]
      cases Component.take i.state key v with
      | error e => simp [Except.map, Event.isPerform]
      | ok x => simpa [Except.map, Event.isPerform] using ih _

theorem ofReply_sets (r : Registry σ) (reply : Reply) :
    ∀ e ∈ (Outcome.ofReply r reply).2, e.isPerform = false := by
  cases reply with
  | stay => simp [Outcome.ofReply]
  | respond result => simp [Outcome.ofReply]
  | openPage name values =>
    simp only [Outcome.ofReply, Instance.openPage]
    cases r.resolveComponent name with
    | error e => simp
    | ok d => exact setAll_sets values _

/-! ## Steps into components and out of them -/

omit [Component σ] in
theorem on_template (r : Registry σ) (d : Definition σ) :
    (template r d).on s =
      ((Templates.get r d s.templates).1.mapError Failure.compile, s.compiled r d) := by
  rw [template, on_bind]
  rfl

omit [Component σ] in
theorem on_pageTemplate (r : Registry σ) :
    (pageTemplate r).on s = match r.resolveComponent s.page.name with
      | .error e => (.error (.resolve e), s)
      | .ok d => match (Templates.get r d s.templates).1 with
        | .error e => (.error (.compile e), s.compiled r d)
        | .ok e => (.ok e, (s.compiled r d).mapContext Context.atRoot) := by
  simp only [pageTemplate, on_bind, on_get, on_lift]
  rcases r.resolveComponent s.page.name with x | d
  · rfl
  simp only [mapError_ok, on_template]
  rcases (Templates.get r d s.templates).1 with x | e <;> rfl

/-- The component in the place of the element, or a new one. -/
def childAt (d : Definition σ) (s : Scene σ) : Instance σ :=
  (s.current.child? s.context.elementId.text).getD (.ofDefinition d)

theorem on_arrive (r : Registry σ) (name : String) (bs : Bindings) (content : Option Element) :
    (arrive r name bs content).on s = match r.resolveComponent name with
      | .error e => (.error (.resolve e), s)
      | .ok d => match (Templates.get r d s.templates).1 with
        | .error e => (.error (.compile e), s.compiled r d)
        | .ok template => match Instance.receive r.helpers s.current.state bs (childAt d s) with
          | ((.error e, child), es) =>
            let t := (s.compiled r d).addEvents es
            (.error e, putChild s.context.elementId.text child (t.without s.context.elementId.text))
          | ((.ok (), child), es) =>
            (.ok template, ((s.compiled r d).addEvents es).pushed s.context.elementId.text child content) := by
  rw [arrive, on_bind, on_lift]
  rcases hd : r.resolveComponent name with e | d
  · rfl
  simp only [mapError_ok, on_bind, on_template]
  rcases ht : (Templates.get r d s.templates).1 with e | template
  · rfl
  simp only [mapError_ok, on_get, takeChild, on_bind, on_modify, on_pure, Scene.current_withCurrent,
    Scene.current_compiled, Scene.compiled_context, Instance.withoutChild_state, childAt]
  rcases Instance.receive r.helpers s.current.state bs
    ((s.current.child? s.context.elementId.text).getD (.ofDefinition d)) with ⟨⟨e | _, child⟩, es⟩
  · simp only [on_bind, on_modify, on_throw, Scene.without_addEvents]
    rfl
  · simp only [on_bind, on_modify, on_pure, Scene.pushed, Scene.without_addEvents]
    rfl

/-- A component that is come to. -/
theorem arrive_ok {r : Registry σ} {name : String} {bs : Bindings} {content : Option Element} {s t : Scene σ}
    {e : Element}
    (h : (arrive r name bs content).on s = (.ok e, t)) :
    ∃ d child es, r.resolveComponent name = .ok d ∧ (Templates.get r d s.templates).1 = .ok e ∧
      Instance.receive r.helpers s.current.state bs (childAt d s) = ((.ok (), child), es) ∧
      t = ((s.compiled r d).addEvents es).pushed s.context.elementId.text child content := by
  rw [on_arrive] at h
  rcases hd : r.resolveComponent name with x | d
  · simp [hd] at h
  rcases ht : (Templates.get r d s.templates).1 with x | template
  · simp [hd, ht] at h
  rcases hr : Instance.receive r.helpers s.current.state bs (childAt d s) with ⟨⟨x | _, child⟩, es⟩
  · simp [hd, ht, hr] at h
  · simp only [hd, ht, hr, Prod.mk.injEq, Except.ok.injEq] at h
    exact ⟨d, child, es, rfl, by rw [ht, h.1], hr, h.2.symm⟩

theorem on_pullBindings_cons (child : σ) (key : String) (b : Binding) (rest : Bindings) :
    (pullBindings child ((key, b) :: rest)).on s = match owed child s.current.state key b with
      | some (p, v) => (do setPath p v; pullBindings child rest).on s
      | none => (pullBindings child rest).on s := by
  rw [pullBindings, on_bind, on_get]
  rcases h : owed child s.current.state key b with _ | ⟨p, v⟩ <;> simp only [h]

theorem on_depart (bs : Bindings) :
    (depart bs).on s = match s.frames with
      | [] => (.error .noFrame, s)
      | f :: rest =>
        let pulled := (pullBindings f.inner.state bs).on { s with frames := rest }
        (.ok pulled.1, putChild f.key f.inner pulled.2) := by
  rw [depart, on_bind]
  simp only [popFrame, on_bind, on_get]
  rcases s.frames with _ | ⟨f, rest⟩
  · rfl
  · simp only [on_bind, on_modify, on_pure, on_attempt]

/-- What comes of a traversal of a component, if its values could be taken back. -/
def afterPull (x : Except Failure α) (pulled : Except Failure Unit) : Except Failure α :=
  x.bind fun a => pulled.map fun _ => a

theorem on_enter (r : Registry σ) (name : String) (bs : Bindings) (content : Option Element)
    (run : Element → Pass σ α) :
    (enter r name bs content run).on s = match (arrive r name bs content).on s with
      | (.error e, t) => (.error e, t)
      | (.ok template, t) =>
        let (x, u) := (run template).on t
        match (depart bs).on u with
        | (.error e, u) => (.error e, u)
        | (.ok pulled, u) => (afterPull x pulled, u) := by
  rw [enter, on_bind]
  rcases (arrive r name bs content).on s with ⟨e | template, t⟩
  · rfl
  simp only [on_bind, on_attempt]
  rcases (run template).on t with ⟨x, u⟩
  rcases (depart bs).on u with ⟨e | pulled, u⟩
  · rfl
  · cases x <;> cases pulled <;> simp [afterPull, Except.bind, Except.map]

omit [Component σ] in
theorem on_inParent (default : α) (run : Element → Pass σ α) :
    (inParent default run).on s = match s.frames with
      | [] => (.ok default, s)
      | f :: rest => match f.content with
        | none => (.ok default, s)
        | some e =>
          let (x, t) := (run e).on { s with frames := rest }
          (x, { t with frames := f :: t.frames }) := by
  rw [inParent, on_bind, on_get]
  rcases h : s.frames with _ | ⟨f, rest⟩
  · simp only [h, on_pure]
  simp only [h, on_bind, on_modify, on_ensuring]
  cases f.content with
  | none => simp [← h]
  | some e => rfl

/-! ## One after the other -/

theorem on_visitAll_cons (r : Registry σ) (run : Element → Pass σ (Found σ)) (phase : Phase) (e : Element)
    (rest : List Element) :
    (Element.visitAll r run phase (e :: rest)).on s =
      match (Walk.part phase (e.visitWith r run phase)).on s with
      | (.ok none, t) => (Element.visitAll r run phase rest).on (t.mapContext Context.next)
      | o => o := by
  rw [Element.visitAll, on_bind]
  rcases (Walk.part phase (e.visitWith r run phase)).on s with ⟨_ | _ | o, t⟩ <;> rfl

theorem on_rounds_cons (item index : Option KeyPath) (body : Pass σ (Found σ)) (i : Nat) (v : Value)
    (rest : List Value) :
    (Control.rounds item index body i (v :: rest)).on s =
      match (Control.setRound item index i v).on s with
      | (.error e, t) => (.error e, t)
      | (.ok _, t) => match body.on t with
        | (.ok none, u) => (Control.rounds item index body (i + 1) rest).on (u.mapContext Context.next)
        | o => o := by
  rw [Control.rounds, on_bind]
  rcases (Control.setRound item index i v).on s with ⟨_ | _, t⟩
  · rfl
  · dsimp only
    rw [on_bind]
    rcases body.on t with ⟨_ | _ | o, u⟩ <;> rfl

theorem on_visitForm_invoke (r : Registry σ) (action : Option Binding) (content : Pass σ (Found σ)) :
    (Control.visitForm r action content .invoke).on s =
      match content.on (s.mapContext (·.withInForm true)) with
      | (.ok none, t) => (((Control.submitForm r action).on t).1,
          ((Control.submitForm r action).on t).2.mapContext (·.withInForm false))
      | (x, t) => (x, t.mapContext (·.withInForm false)) := by
  rw [Control.visitForm, on_inForm, on_bind]
  rcases content.on (s.mapContext (·.withInForm true)) with ⟨_ | _ | o, t⟩ <;> rfl

end Pass

/-! ## Pages -/

/-- What a page is shown in at first: nothing but its media type. -/
def Http.Response.page : Http.Response := Http.Response.setHeader {} "Content-Type" "text/html; charset=utf-8"

theorem Pass.on_renderPage {σ : Type} [Component σ] (r : Registry σ) (s : Scene σ) :
    (renderPage r).on s =
      match (walkPage r .render).on ({ s with response := Http.Response.page } : Scene σ).mute with
      | (.error e, t) => (.error e, t)
      | (.ok _, t) => (.ok (t.response.setMuted false), t) := by
  rw [renderPage, on_bind, on_modify]
  dsimp only
  rw [on_bind, on_modify]
  dsimp only
  rw [on_bind]
  have hpage : Http.Response.setHeader {} "Content-Type" "text/html; charset=utf-8" = Http.Response.page := rfl
  rw [hpage]
  rcases (walkPage r .render).on ({ s with response := Http.Response.page } : Scene σ).mute with ⟨e | o, t⟩
  · rfl
  · rfl

end PageServer
