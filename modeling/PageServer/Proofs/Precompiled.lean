/-
  PageServer.Proofs.Precompiled — it makes no difference which templates are compiled already.

  A template that is kept is what compiling it again would give (`Templates.Compiled`), and one that
  has a fault is never kept. Nothing else looks at the templates. So two traversals that differ in
  what is kept do the same, and end the same way (`Pass.Blind`).
-/

import PageServer.Proofs.Compiled

namespace PageServer

variable {σ : Type}

/-- The scene with these templates compiled. -/
def Scene.given (ts : Templates) (s : Scene σ) : Scene σ := { s with templates := ts }

@[simp] theorem Scene.given_context (ts : Templates) (s : Scene σ) : (s.given ts).context = s.context := rfl
@[simp] theorem Scene.given_current (ts : Templates) (s : Scene σ) : (s.given ts).current = s.current := rfl
@[simp] theorem Scene.given_frames (ts : Templates) (s : Scene σ) : (s.given ts).frames = s.frames := rfl
@[simp] theorem Scene.given_templates (ts : Templates) (s : Scene σ) : (s.given ts).templates = ts := rfl
@[simp] theorem Scene.given_page (ts : Templates) (s : Scene σ) : (s.given ts).page = s.page := rfl

theorem Scene.withCurrent_given (ts : Templates) (s : Scene σ) (i : Instance σ) :
    (s.given ts).withCurrent i = (s.withCurrent i).given ts := by
  obtain ⟨c, templates, page, frames, response, events⟩ := s
  cases frames <;> rfl

/-- To get a template again gives the same, and what is kept stays as good as it was. -/
theorem Templates.Compiled.get_eq {r : Registry σ} {ts ts' : Templates} (h : Templates.Compiled r ts)
    (h' : Templates.Compiled r ts') {name : String} {d : Definition σ} (hd : r.resolveComponent name = .ok d) :
    (Templates.get r d ts').1 = (Templates.get r d ts).1 := by
  have hfault : ∀ {ts : Templates} {e : Template.CompileError}, Templates.Compiled r ts →
      Template.compile r d.template d.declarations = .error e →
        (Templates.get r d ts).1 = .error (.inComponent d.name e) := by
    intro ts e hts he
    unfold Templates.get
    split
    · rename_i kept hkept
      have hc := hts name d kept hd hkept
      rw [he] at hc
      cases hc
    · rw [he]
  rcases hc : Template.compile r d.template d.declarations with e | e
  · rw [hfault h hc, hfault h' hc]
  · rw [h.get_of_compile hd hc, h'.get_of_compile hd hc]

/-! ## Steps -/

/-- The step does the same whatever is compiled already, and keeps what is compiled good. -/
def Pass.Blind {α : Type} (r : Registry σ) (p : Pass σ α) : Prop :=
  ∀ s ts, Templates.Compiled r s.templates → Templates.Compiled r ts →
    ∃ ts', p.on (s.given ts) = ((p.on s).1, (p.on s).2.given ts') ∧ Templates.Compiled r (p.on s).2.templates ∧
      Templates.Compiled r ts'

namespace Pass.Blind

open Walk

variable {r : Registry σ} {α β : Type}

/-- A step that does not look at the templates. -/
theorem of_unseen {p : Pass σ α} (h : ∀ s ts, p.on (s.given ts) = ((p.on s).1, (p.on s).2.given ts))
    (hsame : ∀ s, (p.on s).2.templates = s.templates) : Blind r p :=
  fun s ts hs hts => ⟨ts, h s ts, by rwa [hsame s], hts⟩

theorem pure (a : α) : Blind r (pure a : Pass σ α) := of_unseen (fun _ _ => rfl) fun _ => rfl

theorem throw (e : Failure) : Blind r (throw e : Pass σ α) := of_unseen (fun _ _ => rfl) fun _ => rfl

theorem lift (x : Except Failure α) : Blind r (lift x : Pass σ α) := of_unseen (fun _ _ => rfl) fun _ => rfl

theorem bind {p : Pass σ α} {f : α → Pass σ β} (hp : Blind r p) (hf : ∀ a, Blind r (f a)) : Blind r (p >>= f) := by
  intro s ts hs hts
  obtain ⟨ts', h, hs', hts'⟩ := hp s ts hs hts
  rw [on_bind, on_bind, h]
  rcases hrun : p.on s with ⟨e | a, t⟩ <;> rw [hrun] at hs'
  · exact ⟨ts', rfl, hs', hts'⟩
  · exact hf a t ts' hs' hts'

theorem ofPass {p : Pass σ Unit} (h : Blind r p) : Blind r (ofPass p) := bind h fun _ => pure _

/-- A step that looks at the scene first, but not at the templates. -/
theorem get {f : Scene σ → Pass σ β} (h : ∀ s, Blind r (f s)) (hf : ∀ s ts, f (s.given ts) = f s) :
    Blind r (do f (← get)) := by
  intro s ts hs hts
  rw [on_bind, on_bind, on_get, on_get]
  dsimp only
  rw [hf s ts]
  exact h s s ts hs hts

theorem mapContext (f : Context → Context) : Blind r (modify (·.mapContext f) : Pass σ PUnit) :=
  of_unseen (fun _ _ => rfl) fun _ => rfl

/-- `f` at the end, whether or not the step failed. -/
theorem ensuring {p : Pass σ α} {f : Scene σ → Scene σ} (h : Blind r p) (hf : ∀ s ts, f (s.given ts) = (f s).given ts)
    (hsame : ∀ s, (f s).templates = s.templates) : Blind r (ensuring p f) := by
  intro s ts hs hts
  obtain ⟨ts', hrun, hs', hts'⟩ := h s ts hs hts
  refine ⟨ts', ?_, ?_, hts'⟩
  · rw [on_ensuring, on_ensuring, hrun, hf]
  · rw [on_ensuring, hsame]
    exact hs'

theorem below {p : Pass σ α} (h : Blind r p) : Blind r (below p) :=
  bind (mapContext Context.down) fun _ => ensuring h (fun _ _ => rfl) fun _ => rfl

theorem inForm {p : Pass σ α} (h : Blind r p) : Blind r (inForm p) :=
  bind (mapContext _) fun _ => ensuring h (fun _ _ => rfl) fun _ => rfl

theorem toNext : Blind r (toNext : Pass σ Unit) := mapContext Context.next

theorem write (text : String) : Blind r (write text : Pass σ Unit) := of_unseen (fun _ _ => rfl) fun _ => rfl

theorem url : Blind r (url : Pass σ String) := of_unseen (fun _ _ => rfl) fun _ => rfl

theorem part {p : Pass σ (Found σ)} (h : Blind r p) (phase : Phase) : Blind r (part phase p) := by
  cases phase with
  | invoke =>
    refine get (fun s => ?_) fun _ _ => rfl
    split
    · exact h
    · exact pure none
  | _ => exact h

theorem attempt {p : Pass σ α} (h : Blind r p) : Blind r (attempt p) := by
  intro s ts hs hts
  obtain ⟨ts', hrun, hs', hts'⟩ := h s ts hs hts
  refine ⟨ts', ?_, hs', hts'⟩
  rw [on_attempt, on_attempt, hrun]

theorem inParent {run : Element → Pass σ α} (default : α) (h : ∀ e, Blind r (run e)) : Blind r (inParent default run) := by
  intro s ts hs hts
  rw [on_inParent, on_inParent, Scene.given_frames]
  rcases s.frames with _ | ⟨f, rest⟩
  · exact ⟨ts, rfl, hs, hts⟩
  dsimp only
  rcases f.content with _ | e
  · exact ⟨ts, rfl, hs, hts⟩
  · obtain ⟨ts', hrun, hs', hts'⟩ := h e { s with frames := rest } ts hs hts
    have hrun' : (run e).on { s.given ts with frames := rest } = _ := hrun
    refine ⟨ts', ?_, hs', hts'⟩
    dsimp only
    rw [hrun']
    rfl

variable [Component σ]

theorem evaluate (hs : Helpers) (b : Binding) : Blind r (evaluate hs b : Pass σ Value) := by
  refine of_unseen (fun s ts => ?_) fun s => ?_
  · rw [on_evaluate, on_evaluate]
    rfl
  · rw [on_evaluate]

theorem evaluateText (hs : Helpers) (b : Binding) : Blind r (evaluateText hs b : Pass σ String) :=
  bind (evaluate hs b) fun _ => pure _

theorem evaluateFlag (hs : Helpers) (b : Option Binding) (default : Bool) :
    Blind r (evaluateFlag hs b default : Pass σ Bool) := by
  cases b with
  | none => exact pure default
  | some b => exact bind (evaluate hs b) fun _ => pure _

theorem setKey (key : String) (v : Value) : Blind r (setKey key v : Pass σ Unit) := by
  refine of_unseen (fun s ts => ?_) fun s => ?_
  · rw [on_setKey, on_setKey, Scene.given_current]
    rcases Component.take s.current.state key v with e | y
    · rfl
    · exact congrArg (Prod.mk (Except.ok ())) (Scene.withCurrent_given ts (s.addEvents _) _)
  · rw [on_setKey]
    rcases Component.take s.current.state key v with e | y
    · rfl
    · exact Scene.withCurrent_templates _ _

theorem setPath (p : KeyPath) (v : Value) : Blind r (setPath p v : Pass σ Unit) :=
  get (fun _ => bind (lift _) fun root => setKey p.first root) fun _ _ => rfl

theorem setBinding (b : Binding) (v : Value) : Blind r (setBinding b v : Pass σ Unit) := by
  unfold Pass.setBinding
  split
  · exact setPath _ v
  · exact throw _

theorem pullBindings (child : σ) (bs : Bindings) : Blind r (pullBindings child bs) := by
  induction bs with
  | nil => exact pure ()
  | cons b rest ih =>
    obtain ⟨key, b⟩ := b
    intro s ts hs hts
    rw [on_pullBindings_cons, on_pullBindings_cons, Scene.given_current]
    rcases owed child s.current.state key b with _ | ⟨p, v⟩
    · exact ih s ts hs hts
    · exact bind (setPath p v) (fun _ => ih) s ts hs hts

theorem actionName (hs : Helpers) (a : Binding) : Blind r (actionName hs a : Pass σ String) := by
  cases a with
  | keyPath p => exact pure _
  | _ => exact evaluateText hs _

theorem perform (a : Binding) : Blind r (perform r a) := by
  refine bind (actionName r.helpers a) fun name => get (fun s => ?_) fun _ _ => rfl
  refine bind (of_unseen (fun t ts => ?_) fun t => Scene.withCurrent_templates _ _) fun _ => ?_
  · simp only [on_modify, Scene.withCurrent_given]
    rfl
  · exact bind (lift _) fun reply => bind (of_unseen (fun _ _ => rfl) fun _ => rfl) fun _ => lift _

/-! ## Controls -/

open Control

theorem visitString (value : Binding) (escape whenEmpty : Option Binding) (phase : Phase) :
    Blind r (visitString r.helpers value escape whenEmpty phase : Pass σ (Found σ)) := by
  have hwrite : ∀ text, Blind r (do
      if ← Pass.evaluateFlag r.helpers escape true then Pass.write (Text.htmlEscape text)
      else Pass.write text : Pass σ Unit) := fun text =>
    bind (evaluateFlag r.helpers _ _) fun b => by cases b <;> exact write _
  cases phase with
  | render =>
    refine ofPass (bind (evaluateText r.helpers _) fun text => ?_)
    dsimp only
    split
    · split
      · exact bind (evaluateText r.helpers _) fun text => hwrite text
      · exact hwrite text
    · exact hwrite text
  | _ => exact pure none

theorem fieldName (name : Option Binding) : Blind r (fieldName r.helpers name : Pass σ String) := by
  cases name with
  | none => exact get (fun _ => pure _) fun _ _ => rfl
  | some b => exact evaluateText r.helpers b

theorem visitTextField (value : Binding) (name : Option Binding) (phase : Phase) :
    Blind r (visitTextField r.helpers value name phase : Pass σ (Found σ)) := by
  cases phase with
  | invoke => exact pure none
  | take =>
    refine ofPass ?_
    split
    · refine bind (fieldName name) fun n => get (fun s => ?_) fun _ _ => rfl
      split
      · exact setBinding value _
      · exact pure ()
    · exact pure ()
  | render =>
    exact ofPass (bind (fieldName name) fun _ => bind (evaluateText r.helpers value) fun _ => write _)

theorem openLink (target : Target) : Blind r (openLink r.helpers target : Pass σ Unit) := by
  refine bind ?_ fun _ => write _
  cases target with
  | action a => exact url
  | href b => exact evaluateText r.helpers b
  | directAction b => exact bind (evaluateText r.helpers b) fun _ => pure _

theorem visitHyperlink (target : Target) (label : Option Binding) {content : Pass σ (Found σ)} (h : Blind r content)
    (phase : Phase) : Blind r (visitHyperlink r target label content phase) := by
  cases phase with
  | take => exact pure none
  | invoke =>
    cases target with
    | action a =>
      refine get (fun s => ?_) fun _ _ => rfl
      split
      · exact bind (perform a) fun _ => pure _
      · exact pure none
    | _ => exact pure none
  | render =>
    refine ofPass (bind (openLink target) fun _ => ?_)
    cases label with
    | some b => exact bind (evaluateText r.helpers b) fun _ => bind (write _) fun _ => write _
    | none => exact bind h fun _ => write _

theorem submitForm (action : Option Binding) : Blind r (submitForm r action) := by
  refine get (fun s => ?_) fun _ _ => rfl
  split
  · cases action with
    | some a => exact bind (perform a) fun _ => pure _
    | none => exact pure _
  · exact pure none

theorem visitForm (action : Option Binding) {content : Pass σ (Found σ)} (h : Blind r content) (phase : Phase) :
    Blind r (visitForm r action content phase) := by
  cases phase with
  | take => exact inForm h
  | invoke =>
    refine inForm (bind h fun found => ?_)
    cases found with
    | some o => exact pure _
    | none => exact submitForm action
  | render => exact ofPass (bind (bind url fun _ => write _) fun _ => bind (inForm h) fun _ => write _)

theorem visitSubmitButton (action value : Option Binding) (phase : Phase) :
    Blind r (visitSubmitButton r action value phase) := by
  cases phase with
  | take => exact pure none
  | invoke =>
    cases action with
    | none => exact pure none
    | some a =>
      refine get (fun s => ?_) fun _ _ => rfl
      split
      · exact bind (perform a) fun _ => pure _
      · exact pure none
  | render =>
    refine ofPass (get (fun s => ?_) fun _ _ => rfl)
    cases value with
    | none => exact bind (pure _) fun _ => write _
    | some b => exact bind (evaluateText r.helpers b) fun _ => write _

theorem setRound (item index : Option KeyPath) (i : Nat) (v : Value) :
    Blind r (setRound item index i v : Pass σ Unit) := by
  cases item with
  | none =>
    cases index with
    | none => exact pure ()
    | some q => exact setPath q _
  | some p =>
    refine bind (setPath p v) fun _ => ?_
    cases index with
    | none => exact pure ()
    | some q => exact setPath q _

theorem rounds (item index : Option KeyPath) {body : Pass σ (Found σ)} (h : Blind r body) (items : List Value) (i : Nat) :
    Blind r (rounds item index body i items) := by
  induction items generalizing i with
  | nil => exact pure none
  | cons v rest ih =>
    refine bind (setRound item index i v) fun _ => bind h fun found => ?_
    cases found with
    | some o => exact pure _
    | none => exact bind toNext fun _ => ih (i + 1)

theorem listItems (list : Binding) : Blind r (listItems r.helpers list : Pass σ (List Value)) := by
  refine bind (evaluate r.helpers list) fun v => ?_
  cases v with
  | null => exact pure _
  | list items => exact pure _
  | _ => exact throw _

theorem visitRepetition (list : Binding) (item index : Option KeyPath) {content : Option (Pass σ (Found σ))}
    (h : ∀ p ∈ content, Blind r p) (phase : Phase) :
    Blind r (visitRepetition r.helpers list item index content phase) := by
  cases content with
  | none => exact pure none
  | some body => exact bind (listItems list) fun items => below (rounds item index (part (h body rfl) phase) items 0)

theorem visitConditional (condition : Binding) (negate : Option Binding) {content : Pass σ (Found σ)}
    (h : Blind r content) :
    Blind r (visitConditional r.helpers condition negate content) := by
  refine bind (bind (evaluateFlag r.helpers _ _) fun _ => bind (evaluateFlag r.helpers _ _) fun _ => pure _) fun b => ?_
  cases b with
  | false => exact pure none
  | true => exact h

theorem visitUpdateContainer (id : Binding) (elementName : Option Binding) {content : Pass σ (Found σ)}
    (h : Blind r content) (phase : Phase) : Blind r (visitUpdateContainer r.helpers id elementName content phase) := by
  cases phase with
  | render =>
    have hopen : ∀ id name, Blind r (do
        modify fun s => (s.mapContext (·.enterContainer id)).mute
        Pass.write (Text.tag name [("id", some id)] false)
        return name : Pass σ String) := fun id name =>
      bind (of_unseen (fun _ _ => rfl) fun _ => rfl) fun _ => bind (write _) fun _ => pure _
    refine bind (bind (evaluateText r.helpers id) fun id => ?_) fun name => ensuring h (fun _ _ => rfl) fun _ => rfl
    cases elementName with
    | none => exact bind (pure _) fun name => hopen id name
    | some b => exact bind (evaluateText r.helpers b) fun name => hopen id name
  | _ => exact h

theorem writeAll (writes : List (Binding × Value)) : Blind r (writeAll writes : Pass σ Unit) := by
  induction writes with
  | nil => exact pure ()
  | cons w rest ih => exact bind (setBinding w.1 w.2) fun _ => ih

theorem visitWidget (w : Widget) (bs : Bindings) (phase : Phase) : Blind r (visitWidget r w bs phase) := by
  cases phase with
  | take => exact ofPass (get (fun _ => writeAll _) fun _ _ => rfl)
  | invoke =>
    refine get (fun s => ?_) fun _ _ => rfl
    split
    · exact bind (perform _) fun _ => pure _
    · exact pure none
  | render => exact ofPass (get (fun _ => write _) fun _ _ => rfl)

/-! ## Components in templates -/

theorem arrive (hk : r.Keyed) (name : String) (bs : Bindings) (content : Option Element) :
    Blind r (arrive r name bs content) := by
  intro s ts hs hts
  rw [on_arrive, on_arrive, Scene.given_current, Scene.given_context, Scene.given_templates]
  have hchild : ∀ d, childAt d (s.given ts) = childAt d s := fun _ => rfl
  rcases hd : r.resolveComponent name with e | d
  · exact ⟨ts, rfl, hs, hts⟩
  have hafter : ∀ es, ((s.given ts).compiled r d).addEvents es =
      ((s.compiled r d).addEvents es).given (Templates.get r d ts).2 := fun _ => rfl
  have hkept : Templates.Compiled r (s.compiled r d).templates := hs.get hd hk
  simp only [hs.get_eq hts hd, hchild]
  rcases (Templates.get r d s.templates).1 with e | template
  · exact ⟨_, rfl, hkept, hts.get hd hk⟩
  dsimp only
  rcases Instance.receive r.helpers s.current.state bs (childAt d s) with ⟨⟨e | _, child⟩, es⟩
  · refine ⟨(Templates.get r d ts).2, ?_, ?_, hts.get hd hk⟩
    · simp only [hafter, putChild, Scene.without, Scene.given_current, Scene.withCurrent_given]
    · simpa [putChild, Scene.without] using hkept
  · refine ⟨(Templates.get r d ts).2, ?_, ?_, hts.get hd hk⟩
    · simp only [hafter, Scene.pushed, Scene.without, Scene.given_current, Scene.withCurrent_given]
      rfl
    · simpa [Scene.pushed, Scene.without] using hkept

theorem depart (bs : Bindings) : Blind r (depart bs : Pass σ _) := by
  intro s ts hs hts
  rw [on_depart, on_depart, Scene.given_frames]
  rcases s.frames with _ | ⟨f, rest⟩
  · exact ⟨ts, rfl, hs, hts⟩
  · obtain ⟨ts', hrun, hs', hts'⟩ := pullBindings f.inner.state bs { s with frames := rest } ts hs hts
    have hrun' : (Pass.pullBindings f.inner.state bs).on { s.given ts with frames := rest } = _ := hrun
    refine ⟨ts', ?_, ?_, hts'⟩
    · dsimp only
      rw [hrun']
      exact congrArg (Prod.mk _) (Scene.withCurrent_given ts' _ _)
    · dsimp only
      rw [putChild, Scene.withCurrent_templates]
      exact hs'

theorem enter (hk : r.Keyed) {run : Element → Pass σ α} (name : String) (bs : Bindings) (content : Option Element)
    (h : ∀ e, Blind r (run e)) : Blind r (enter r name bs content run) :=
  bind (arrive hk name bs content) fun template => bind (attempt (h template)) fun _ =>
    bind (depart bs) fun _ => bind (lift _) fun a => bind (lift _) fun _ => pure a

/-! ## Traversals -/

theorem visitControl (c : Control) {run : Element → Pass σ (Found σ)} (hrun : ∀ e, Blind r (run e)) (phase : Phase)
    {content : Option (Pass σ (Found σ))} (h : ∀ p ∈ content, Blind r p) : Blind r (c.visit r run phase content) := by
  have hinside : Blind r (content.getD nothing) := by
    cases content with
    | none => exact pure none
    | some p => exact h p rfl
  cases c with
  | string value escape whenEmpty => exact visitString value escape whenEmpty phase
  | textField value name => exact visitTextField value name phase
  | hyperlink target label => exact visitHyperlink target label hinside phase
  | form action => exact visitForm action hinside phase
  | submitButton action value => exact visitSubmitButton action value phase
  | repetition list item index => exact visitRepetition list item index h phase
  | conditional condition negate => exact visitConditional condition negate hinside
  | componentContent => exact inParent none hrun
  | updateContainer id name => exact visitUpdateContainer id name hinside phase
  | widget typeName tag bindings =>
    simp only [Control.visit]
    split
    · exact visitWidget _ bindings phase
    · exact pure none

mutual

theorem visitWith (hk : r.Keyed) {run : Element → Pass σ (Found σ)} (hrun : ∀ e, Blind r (run e)) (phase : Phase) :
    ∀ e : Element, Blind r (e.visitWith r run phase)
  | .text s => by
    cases phase with
    | render => exact ofPass (write s)
    | _ => exact pure none
  | .group _ children => below (visitAll hk hrun phase children)
  | .component _ name bs content => enter hk name bs content hrun
  | .control c content => visitControl c hrun phase (visitContent hk hrun phase content)

theorem visitAll (hk : r.Keyed) {run : Element → Pass σ (Found σ)} (hrun : ∀ e, Blind r (run e)) (phase : Phase) :
    ∀ es : List Element, Blind r (Element.visitAll r run phase es)
  | [] => pure none
  | e :: rest => by
    refine bind (part (visitWith hk hrun phase e) phase) fun found => ?_
    cases found with
    | some o => exact pure _
    | none => exact bind toNext fun _ => visitAll hk hrun phase rest

theorem visitContent (hk : r.Keyed) {run : Element → Pass σ (Found σ)} (hrun : ∀ e, Blind r (run e)) (phase : Phase) :
    ∀ content : Option Element, ∀ p ∈ Element.visitContent r run phase content, Blind r p
  | none, _, h => by cases h
  | some e, _, h => by
    cases h
    exact visitWith hk hrun phase e

end

theorem visit (hk : r.Keyed) (phase : Phase) (depth : Nat) (e : Element) : Blind r (e.visit r phase depth) := by
  induction depth generalizing e with
  | zero => exact throw _
  | succ n ih => exact visitWith hk (fun e => ih e) phase e

omit [Component σ] in
theorem pageTemplate (hk : r.Keyed) : Blind r (pageTemplate r : Pass σ Element) := by
  intro s ts hs hts
  rw [on_pageTemplate, on_pageTemplate, Scene.given_page, Scene.given_templates]
  rcases hd : r.resolveComponent s.page.name with e | d
  · exact ⟨ts, rfl, hs, hts⟩
  simp only [hs.get_eq hts hd]
  have hkept : Templates.Compiled r (Templates.get r d s.templates).2 := hs.get hd hk
  rcases (Templates.get r d s.templates).1 with e | e
  · exact ⟨_, rfl, hkept, hts.get hd hk⟩
  · exact ⟨_, rfl, hkept, hts.get hd hk⟩

theorem walkPage (hk : r.Keyed) (phase : Phase) : Blind r (walkPage r phase) :=
  bind (pageTemplate hk) fun e => visit hk phase r.maxDepth e

theorem renderPage (hk : r.Keyed) : Blind r (renderPage r) :=
  bind (of_unseen (fun _ _ => rfl) fun _ => rfl) fun _ => bind (of_unseen (fun _ _ => rfl) fun _ => rfl) fun _ =>
    bind (walkPage hk .render) fun _ => get (fun _ => pure _) fun _ _ => rfl

end Pass.Blind

end PageServer
