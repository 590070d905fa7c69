/-
  PageServer.Proofs.Sure — traversals that find no fault in a template.

  A template that does not compile and a helper that there is not are faults of the templates
  (`Failure.isFault`). Where all templates are kept already (`Templates.Complete`), and so are checked
  (`Element.Checked`), a traversal meets none of its own accord: if it ends in such a failure, then what
  the application has registered gave it (`Registry.Gives`), from a state that a component can be in.

  `Pass.Sure` says so for a step, one lemma per construct. It is closed under putting steps together
  as the scene stays `Ready` however a step ends. Whether all templates are kept is a parameter,
  `warm`: without it all that is left is that components stay in states that they can get into.
-/

import PageServer.Proofs.Growth

namespace PageServer

variable {σ : Type}

/-! ## Faults -/

/-- A template does not compile, or a binding calls a helper that there is not. -/
def Failure.isFault : Failure → Bool
  | .compile _ | .helper (.unknown _) => true
  | .directAction _ cause => cause.isFault
  | _ => false

section Gives

variable [Component σ]

/-- The failure is one that the code of a component, a helper or a widget gives. A widget can ask for an
    action by a binding that was in no template. -/
inductive Registry.Gives (r : Registry σ) : Failure → Prop
  | take {x : σ} {key : String} {v : Value} {f : Failure} (hx : r.Reaches x) (h : Component.take x key v = .error f) :
      Gives r f
  | perform {x : σ} {action : String} {f : Failure} (hx : r.Reaches x) (h : (Component.perform x action).1 = .error f) :
      Gives r f
  | reply {x : σ} {action : String} {f : Failure} (hx : r.Reaches x)
      (h : (Component.perform x action).1 = .ok (.respond (.error f))) : Gives r f
  | helper {name : String} {helper : Helper} {arguments : List Value} {e : HelperError}
      (hname : Assoc.get? name r.helpers = some helper) (h : helper arguments = .error e) : Gives r (.helper e)
  | widget {typeName name : String} {w : Widget} {accepted bs : Bindings} {place : Place} {action : Binding}
      (hw : Assoc.get? typeName r.types = some (.widget w)) (hknown : accepted.Known r.helpers)
      (hbs : w.accept accepted = .ok bs) (haction : w.action place bs = some action) (hname : name ∈ action.helperNames) :
      Gives r (.helper (.unknown name))

namespace Registry

/-- The failure is no fault of a template, unless what is registered gave it. -/
def Harmless (r : Registry σ) (warm : Prop) (f : Failure) : Prop := warm → f.isFault = true → r.Gives f

/-- The result is as `Q` says, or else a harmless failure. -/
def Grants {α : Type} (r : Registry σ) (warm : Prop) (Q : α → Prop) : Except Failure α → Prop
  | .ok a => Q a
  | .error f => r.Harmless warm f

end Registry

/-- A page that is gone on with is one that can be made, and `P` holds of the failure if there is no
    response. -/
def Outcome.Good (r : Registry σ) (P : Failure → Prop) : Outcome σ → Prop
  | .page p => p.Made r
  | .respond (.error f) => P f
  | _ => True

def Found.Good (r : Registry σ) (warm : Prop) (found : Found σ) : Prop := ∀ o ∈ found, o.Good r (r.Harmless warm)

/-- A helper that the binding calls is registered, or else it is the application that calls it. -/
def Binding.Answered (r : Registry σ) (warm : Prop) (b : Binding) : Prop :=
  warm → ∀ name ∈ b.helperNames, r.helpers.contains name = false → r.Gives (.helper (.unknown name))

variable {r : Registry σ} {warm : Prop}

theorem Registry.harmless_of_not {f : Failure} (h : f.isFault = false) : r.Harmless warm f := by
  intro _ hf
  rw [h] at hf
  cases hf

theorem Binding.answered_of_known {b : Binding} (h : warm → b.Known r.helpers) : b.Answered r warm := by
  intro hwarm name hname hnone
  rw [h hwarm name hname] at hnone
  cases hnone

theorem Binding.Answered.harmless {b : Binding} (h : b.Answered r warm) {x : σ} {e : HelperError}
    (he : b.valueIn r.helpers x = .error e) : r.Harmless warm (.helper e) := by
  intro hwarm _
  obtain ⟨name, hname, arguments, hcall⟩ := Binding.valueIn_error he
  unfold Helpers.call at hcall
  split at hcall
  · rename_i helper hget
    exact .helper hget hcall
  · rename_i hnone
    cases hcall
    exact h hwarm name hname (by rw [Helpers.contains, Assoc.contains, hnone]; rfl)

namespace Instance.Made

variable {i : Instance σ}

theorem set (h : i.Made r) (key : String) (v : Value) : r.Grants warm (Instance.Made r) (i.set key v).1 := by
  rw [Instance.set]
  rcases ht : Component.take i.state key v with f | x
  · exact fun _ _ => .take h.state ht
  · exact h.withState (h.state.take ht)

theorem setAll (h : i.Made r) (values : List (String × Value)) : r.Grants warm (Instance.Made r) (i.setAll values).1 := by
  induction values generalizing i with
  | nil => exact h
  | cons kv rest ih =>
    obtain ⟨key, v⟩ := kv
    have hset : r.Grants warm (Instance.Made r) (i.set key v).1 := h.set key v
    rw [Instance.setAll]
    rcases hi : i.set key v with ⟨f | i', event⟩ <;> rw [hi] at hset
    · exact hset
    · exact ih hset

/-- Values that are bound go in without a fault. -/
theorem receive (h : i.Made r) (parent : σ) {bs : Bindings} (hbs : warm → bs.Known r.helpers) :
    (Instance.receive r.helpers parent bs i).1.2.Made r ∧
      r.Grants warm (fun _ => True) (Instance.receive r.helpers parent bs i).1.1 := by
  induction bs generalizing i with
  | nil => exact ⟨h, trivial⟩
  | cons kb rest ih =>
    obtain ⟨key, b⟩ := kb
    have hb : b.Answered r warm := Binding.answered_of_known fun hwarm => (List.forall_mem_cons.mp (hbs hwarm)).1
    have hrest : warm → Bindings.Known r.helpers rest := fun hwarm => (List.forall_mem_cons.mp (hbs hwarm)).2
    rw [Instance.receive]
    rcases hv : b.valueIn r.helpers parent with e | v
    · exact ⟨h, hb.harmless hv⟩
    have hset : r.Grants warm (Instance.Made r) (i.set key v).1 := h.set key v
    dsimp only
    rcases hi : i.set key v with ⟨f | i', event⟩ <;> rw [hi] at hset
    · exact ⟨h, hset⟩
    · exact ih hset hrest

end Instance.Made

/-- A new page is made without a fault. -/
theorem Registry.Grants.ofReply {P : Failure → Prop} {reply : Reply} (h : ∀ f, reply = .respond (.error f) → P f) :
    r.Grants warm (Outcome.Good r P) (Outcome.ofReply r reply).1 := by
  cases reply with
  | stay => trivial
  | respond result =>
    cases result with
    | ok response => trivial
    | error f => exact h f rfl
  | openPage name values =>
    rw [Outcome.ofReply, Instance.openPage]
    rcases hd : r.resolveComponent name with e | d
    · exact harmless_of_not rfl
    have hvalues : r.Grants warm (Instance.Made r) ((Instance.ofDefinition d).setAll values).1 :=
      (Instance.made_ofDefinition hd).setAll values
    dsimp only
    rcases hall : (Instance.ofDefinition d).setAll values with ⟨f | i, events⟩ <;> rw [hall] at hvalues
    · exact hvalues
    · exact hvalues

end Gives

/-! ## Scenes -/

/-- The element is checked if all templates are. -/
def Element.Fit (r : Registry σ) (warm : Prop) (e : Element) : Prop := warm → e.Checked r

/-- All templates are kept, those under way are checked, and the components are as they can be. -/
structure Scene.Ready [Component σ] (r : Registry σ) (warm : Prop) (s : Scene σ) : Prop where
  templates : warm → Templates.Complete r s.templates
  page : s.page.Made r
  inner : ∀ f ∈ s.frames, f.inner.Made r
  contents : ∀ f ∈ s.frames, ∀ e ∈ f.content, e.Fit r warm

namespace Scene.Ready

variable [Component σ] {r : Registry σ} {warm : Prop} {s t : Scene σ}

theorem start {c : Context} {ts : Templates} (h : warm → Templates.Complete r ts) {page : Instance σ}
    (hpage : page.Made r) :
    (Scene.start c ts page).Ready r warm := ⟨h, hpage, List.forall_mem_nil _, List.forall_mem_nil _⟩

/-- What else a scene holds does not matter. -/
theorem same (h : s.Ready r warm) (htemplates : t.templates = s.templates) (hpage : t.page = s.page)
    (hframes : t.frames = s.frames) : t.Ready r warm :=
  ⟨htemplates ▸ h.templates, hpage ▸ h.page, hframes ▸ h.inner, hframes ▸ h.contents⟩

theorem current (h : s.Ready r warm) : s.current.Made r := by
  obtain ⟨c, ts, page, frames, response, events⟩ := s
  cases frames with
  | nil => exact h.page
  | cons f rest => exact (List.forall_mem_cons.mp h.inner).1

theorem withCurrent (h : s.Ready r warm) {i : Instance σ} (hi : i.Made r) : (s.withCurrent i).Ready r warm := by
  obtain ⟨c, ts, page, frames, response, events⟩ := s
  cases frames with
  | nil => exact ⟨h.templates, hi, h.inner, h.contents⟩
  | cons f rest =>
    exact ⟨h.templates, h.page, List.forall_mem_cons.mpr ⟨hi, (List.forall_mem_cons.mp h.inner).2⟩,
      List.forall_mem_cons.mpr (List.forall_mem_cons.mp h.contents)⟩

theorem withState (h : s.Ready r warm) {x : σ} (hx : r.Reaches x) : (s.withState x).Ready r warm :=
  h.withCurrent (h.current.withState hx)

theorem compiled (hk : r.Keyed) (h : s.Ready r warm) {name : String} {d : Definition σ}
    (hd : r.resolveComponent name = .ok d) : (s.compiled r d).Ready r warm :=
  ⟨fun hwarm => Templates.preserves_complete hk name d _ hd (h.templates hwarm), h.page, h.inner, h.contents⟩

theorem putChild (h : s.Ready r warm) (key : String) {c : Instance σ} (hc : c.Made r) :
    (Pass.putChild key c s).Ready r warm := h.withCurrent (h.current.withChild key hc)

theorem without (h : s.Ready r warm) (key : String) : (s.without key).Ready r warm :=
  h.withCurrent (h.current.withoutChild key)

theorem pushed (h : s.Ready r warm) (key : String) {child : Instance σ} (hchild : child.Made r) {content : Option Element}
    (hcontent : ∀ e ∈ content, e.Fit r warm) : (s.pushed key child content).Ready r warm :=
  have hs := h.without key
  ⟨hs.templates, hs.page, List.forall_mem_cons.mpr ⟨hchild, hs.inner⟩, List.forall_mem_cons.mpr ⟨hcontent, hs.contents⟩⟩

/-- The innermost component with its place is taken off. -/
theorem popped (h : s.Ready r warm) {f : Frame σ} {rest : List (Frame σ)} (hframes : s.frames = f :: rest) :
    f.inner.Made r ∧ (∀ e ∈ f.content, e.Fit r warm) ∧ ({ s with frames := rest } : Scene σ).Ready r warm := by
  obtain ⟨hf, hrest⟩ := List.forall_mem_cons.mp (hframes ▸ h.inner)
  obtain ⟨hcontent, hcontents⟩ := List.forall_mem_cons.mp (hframes ▸ h.contents)
  exact ⟨hf, hcontent, h.templates, h.page, hrest, hcontents⟩

theorem childAt (h : s.Ready r warm) {name : String} {d : Definition σ} (hd : r.resolveComponent name = .ok d) :
    (Pass.childAt d s).Made r := by
  unfold Pass.childAt
  rcases hc : s.current.child? s.context.elementId.text with _ | c
  · exact Instance.made_ofDefinition hd
  · exact h.current.child? hc

/-- The template of a definition is kept already, if all are. -/
theorem get (hk : r.Keyed) (h : s.Ready r warm) {name : String} {d : Definition σ}
    (hd : r.resolveComponent name = .ok d) :
    r.Grants warm (Element.Fit r warm) ((Templates.get r d s.templates).1.mapError Failure.compile) := by
  have hkept : warm → ∃ e, (Templates.get r d s.templates).1 = .ok e ∧ e.Checked r := fun hwarm => by
    obtain ⟨e, hget, hcompile⟩ := (h.templates hwarm).get_eq hk hd
    exact ⟨e, congrArg Prod.fst hget, (Template.checked_of_compile hk hcompile).1⟩
  rcases hget : (Templates.get r d s.templates).1 with error | e <;> rw [hget] at hkept
  · intro hwarm
    obtain ⟨e, he, -⟩ := hkept hwarm
    cases he
  · intro hwarm
    obtain ⟨e', he, hchecked⟩ := hkept hwarm
    cases he
    exact hchecked

end Scene.Ready

/-! ## Steps -/

/-- From a scene that is ready the step ends as `Q` says or in a harmless failure, and the scene stays
    ready in any case. -/
def Pass.Sure [Component σ] {α : Type} (r : Registry σ) (warm : Prop) (Q : α → Prop) (p : Pass σ α) : Prop :=
  ∀ s, s.Ready r warm → (p.on s).2.Ready r warm ∧ r.Grants warm Q (p.on s).1

namespace Pass.Sure

open Walk

variable [Component σ] {r : Registry σ} {warm : Prop} {α β : Type} {Q : α → Prop} {Q' : β → Prop}

theorem pure {a : α} (h : Q a) : Sure r warm Q (pure a : Pass σ α) := fun _ hs => ⟨hs, h⟩

theorem throw {f : Failure} (h : f.isFault = false) : Sure r warm Q (throw f : Pass σ α) := fun _ hs =>
  ⟨hs, Registry.harmless_of_not h⟩

theorem lift {x : Except Failure α} (h : r.Grants warm Q x) : Sure r warm Q (lift x : Pass σ α) := fun _ hs => ⟨hs, h⟩

theorem bind {p : Pass σ α} {f : α → Pass σ β} (hp : Sure r warm Q p) (hf : ∀ a, Q a → Sure r warm Q' (f a)) :
    Sure r warm Q' (p >>= f) := by
  intro s hs
  obtain ⟨ht, hgrants⟩ := hp s hs
  rw [on_bind]
  rcases hrun : p.on s with ⟨e | a, t⟩ <;> rw [hrun] at ht hgrants
  · exact ⟨ht, hgrants⟩
  · exact hf a hgrants t ht

theorem nothing : Sure r warm (Found.Good r warm) (nothing : Pass σ (Found σ)) :=
  pure fun _ ho => absurd ho (Option.not_mem_none _)

theorem ofPass {p : Pass σ Unit} (h : Sure r warm (fun _ => True) p) : Sure r warm (Found.Good r warm) (ofPass p) :=
  bind h fun _ _ => nothing

/-- A step that ends with an outcome, as an outcome that is found. -/
theorem found {p : Pass σ (Outcome σ)} (h : Sure r warm (Outcome.Good r (r.Harmless warm)) p) :
    Sure r warm (Found.Good r warm) (do return some (← p)) :=
  bind h fun _ ho => pure fun _ heq => by cases heq; exact ho

theorem get {f : Scene σ → Pass σ β} (h : ∀ s, Sure r warm Q' (f s)) : Sure r warm Q' (do f (← get)) := by
  intro s hs
  rw [on_bind, on_get]
  exact h s s hs

theorem change {f : Scene σ → Scene σ} (h : ∀ s, s.Ready r warm → (f s).Ready r warm) :
    Sure r warm (fun _ => True) (modify f : Pass σ PUnit) := fun s hs => ⟨h s hs, trivial⟩

theorem mapContext (f : Context → Context) : Sure r warm (fun _ => True) (modify (·.mapContext f) : Pass σ PUnit) :=
  change fun _ hs => hs.same rfl rfl rfl

/-- `f` at the end, whether or not the step failed. -/
theorem ensuring {p : Pass σ α} {f : Scene σ → Scene σ} (h : Sure r warm Q p)
    (hf : ∀ s, s.Ready r warm → (f s).Ready r warm) :
    Sure r warm Q (ensuring p f) := by
  intro s hs
  obtain ⟨ht, hgrants⟩ := h s hs
  exact ⟨hf _ ht, hgrants⟩

theorem attempt {p : Pass σ α} (h : Sure r warm Q p) : Sure r warm (r.Grants warm Q) (attempt p) := h

theorem below {p : Pass σ α} (h : Sure r warm Q p) : Sure r warm Q (below p) :=
  bind (mapContext Context.down) fun _ _ => ensuring h fun _ hs => hs.same rfl rfl rfl

theorem inForm {p : Pass σ α} (h : Sure r warm Q p) : Sure r warm Q (inForm p) :=
  bind (mapContext _) fun _ _ => ensuring h fun _ hs => hs.same rfl rfl rfl

theorem toNext : Sure r warm (fun _ => True) (toNext : Pass σ Unit) := mapContext Context.next

theorem write (text : String) : Sure r warm (fun _ => True) (write text : Pass σ Unit) :=
  change fun _ hs => hs.same rfl rfl rfl

theorem url : Sure r warm (fun _ => True) (url : Pass σ String) := fun _ hs => ⟨hs.same rfl rfl rfl, trivial⟩

theorem part {p : Pass σ (Found σ)} (h : Sure r warm (Found.Good r warm) p) (phase : Phase) :
    Sure r warm (Found.Good r warm) (part phase p) := by
  cases phase with
  | invoke =>
    refine get fun s => ?_
    split
    · exact h
    · exact nothing
  | _ => exact h

/-- What a component is wrapped around has been checked with the template that it stands in. -/
theorem inParent {run : Element → Pass σ α} {default : α} (hdefault : Q default)
    (h : ∀ e : Element, e.Fit r warm → Sure r warm Q (run e)) : Sure r warm Q (inParent default run) := by
  intro s hs
  rw [on_inParent]
  rcases hframes : s.frames with _ | ⟨f, rest⟩
  · exact ⟨hs, hdefault⟩
  dsimp only
  obtain ⟨hinner, hcontents, hpopped⟩ := hs.popped hframes
  rcases hcontent : f.content with _ | e
  · exact ⟨hs, hdefault⟩
  · obtain ⟨ht, hgrants⟩ := h e (hcontents e hcontent) _ hpopped
    exact ⟨⟨ht.templates, ht.page, List.forall_mem_cons.mpr ⟨hinner, ht.inner⟩,
      List.forall_mem_cons.mpr ⟨hcontents, ht.contents⟩⟩, hgrants⟩

theorem evaluate {b : Binding} (hb : b.Answered r warm) :
    Sure r warm (fun _ => True) (evaluate r.helpers b : Pass σ Value) := by
  intro s hs
  rw [on_evaluate]
  rcases hv : b.valueIn r.helpers s.current.state with e | v
  · exact ⟨hs, hb.harmless hv⟩
  · exact ⟨hs, trivial⟩

theorem evaluateText {b : Binding} (hb : b.Answered r warm) :
    Sure r warm (fun _ => True) (evaluateText r.helpers b : Pass σ String) :=
  bind (evaluate hb) fun _ _ => pure trivial

theorem evaluateFlag {b : Option Binding} (hb : ∀ b' ∈ b, b'.Answered r warm) (default : Bool) :
    Sure r warm (fun _ => True) (evaluateFlag r.helpers b default : Pass σ Bool) := by
  cases b with
  | none => exact pure trivial
  | some b => exact bind (evaluate (hb b rfl)) fun _ _ => pure trivial

theorem setKey (key : String) (v : Value) : Sure r warm (fun _ => True) (setKey key v : Pass σ Unit) := by
  intro s hs
  have hevents : ∀ es, (s.addEvents es).Ready r warm := fun _ => hs.same rfl rfl rfl
  rw [on_setKey]
  rcases ht : Component.take s.current.state key v with f | x
  · exact ⟨hevents _, fun _ _ => .take hs.current.state ht⟩
  · exact ⟨(hevents _).withState (hs.current.state.take ht), trivial⟩

theorem setPath (p : KeyPath) (v : Value) : Sure r warm (fun _ => True) (setPath p v : Pass σ Unit) := by
  intro s hs
  rw [on_setPath]
  rcases hroot : p.rootFor v s.current.state with f | root
  · refine ⟨hs, ?_⟩
    unfold KeyPath.rootFor at hroot
    split at hroot
    · cases hroot
    · split at hroot <;> cases hroot
      exact Registry.harmless_of_not rfl
  · exact setKey p.first root s hs

theorem setBinding (b : Binding) (v : Value) : Sure r warm (fun _ => True) (setBinding b v : Pass σ Unit) := by
  unfold Pass.setBinding
  split
  · exact setPath _ v
  · exact throw rfl

theorem pullBindings (child : σ) (bs : Bindings) : Sure r warm (fun _ => True) (pullBindings child bs) := by
  induction bs with
  | nil => exact pure trivial
  | cons b rest ih =>
    obtain ⟨key, b⟩ := b
    intro s hs
    rw [on_pullBindings_cons]
    rcases owed child s.current.state key b with _ | ⟨p, v⟩
    · exact ih s hs
    · exact bind (setPath p v) (fun _ _ => ih) s hs

theorem actionName {a : Binding} (ha : a.Answered r warm) :
    Sure r warm (fun _ => True) (actionName r.helpers a : Pass σ String) := by
  cases a with
  | keyPath p => exact pure trivial
  | _ => exact evaluateText ha

theorem perform {a : Binding} (ha : a.Answered r warm) :
    Sure r warm (Outcome.Good r (r.Harmless warm)) (perform r a) := by
  refine bind (actionName ha) fun name _ s hs => ?_
  have hacted : (s.acted name).Ready r warm :=
    (hs.withState (hs.current.state.perform name)).same rfl rfl rfl
  rcases hp : (Component.perform s.current.state name).1 with f | reply
  · simp only [on_bind, on_get, on_modify, on_lift, hp]
    exact ⟨hacted, fun _ _ => .perform hs.current.state hp⟩
  · have hreply : r.Grants warm (Outcome.Good r (r.Harmless warm)) (Outcome.ofReply r reply).1 :=
      .ofReply fun f hf _ _ => .reply hs.current.state (hf ▸ hp)
    simp only [on_bind, on_get, on_modify, on_lift, hp]
    exact ⟨hacted.same rfl rfl rfl, hreply⟩

/-! ## Controls -/

open Control

theorem visitString {value : Binding} {escape whenEmpty : Option Binding} (hvalue : value.Answered r warm)
    (hescape : ∀ b ∈ escape, b.Answered r warm) (hempty : ∀ b ∈ whenEmpty, b.Answered r warm) (phase : Phase) :
    Sure r warm (Found.Good r warm) (visitString r.helpers value escape whenEmpty phase : Pass σ (Found σ)) := by
  have hwrite : ∀ text, Sure r warm (fun _ => True) (do
      if ← Pass.evaluateFlag r.helpers escape true then Pass.write (Text.htmlEscape text)
      else Pass.write text : Pass σ Unit) := fun text =>
    bind (evaluateFlag hescape _) fun b _ => by cases b <;> exact write _
  cases phase with
  | render =>
    refine ofPass (bind (evaluateText hvalue) fun text _ => ?_)
    dsimp only
    split
    · split
      · exact bind (evaluateText (hempty _ rfl)) fun text _ => hwrite text
      · exact hwrite text
    · exact hwrite text
  | _ => exact nothing

theorem fieldName {name : Option Binding} (hname : ∀ b ∈ name, b.Answered r warm) :
    Sure r warm (fun _ => True) (fieldName r.helpers name : Pass σ String) := by
  cases name with
  | none => exact get fun _ => pure trivial
  | some b => exact evaluateText (hname b rfl)

theorem visitTextField {value : Binding} {name : Option Binding} (hvalue : value.Answered r warm)
    (hname : ∀ b ∈ name, b.Answered r warm) (phase : Phase) :
    Sure r warm (Found.Good r warm) (visitTextField r.helpers value name phase : Pass σ (Found σ)) := by
  cases phase with
  | invoke => exact nothing
  | take =>
    refine ofPass ?_
    split
    · refine bind (fieldName hname) fun n _ => get fun s => ?_
      split
      · exact setBinding value _
      · exact pure trivial
    · exact pure trivial
  | render =>
    exact ofPass (bind (fieldName hname) fun _ _ => bind (evaluateText hvalue) fun _ _ => write _)

theorem openLink {target : Target} (htarget : target.binding.Answered r warm) :
    Sure r warm (fun _ => True) (openLink r.helpers target : Pass σ Unit) := by
  refine bind (Q := fun _ => True) ?_ fun _ _ => write _
  cases target with
  | action a => exact url
  | href b => exact evaluateText htarget
  | directAction b => exact bind (evaluateText htarget) fun _ _ => pure trivial

theorem visitHyperlink {target : Target} {label : Option Binding} {content : Pass σ (Found σ)}
    (htarget : target.binding.Answered r warm) (hlabel : ∀ b ∈ label, b.Answered r warm)
    (h : Sure r warm (Found.Good r warm) content)
    (phase : Phase) : Sure r warm (Found.Good r warm) (visitHyperlink r target label content phase) := by
  cases phase with
  | take => exact nothing
  | invoke =>
    cases target with
    | action a =>
      refine get fun s => ?_
      split
      · exact found (perform htarget)
      · exact nothing
    | _ => exact nothing
  | render =>
    refine ofPass (bind (openLink htarget) fun _ _ => ?_)
    cases label with
    | some b => exact bind (evaluateText (hlabel b rfl)) fun _ _ => bind (write _) fun _ _ => write _
    | none => exact bind h fun _ _ => write _

theorem submitForm {action : Option Binding} (haction : ∀ b ∈ action, b.Answered r warm) :
    Sure r warm (Found.Good r warm) (submitForm r action) := by
  refine get fun s => ?_
  split
  · cases action with
    | some a => exact found (perform (haction a rfl))
    | none => exact found (pure (show Outcome.Good r (r.Harmless warm) .stay from trivial))
  · exact nothing

theorem visitForm {action : Option Binding} {content : Pass σ (Found σ)} (haction : ∀ b ∈ action, b.Answered r warm)
    (h : Sure r warm (Found.Good r warm) content) (phase : Phase) :
    Sure r warm (Found.Good r warm) (visitForm r action content phase) := by
  cases phase with
  | take => exact inForm h
  | invoke =>
    refine inForm (bind h fun o ho => ?_)
    cases o with
    | some o => exact pure ho
    | none => exact submitForm haction
  | render =>
    exact ofPass (bind (bind url fun _ _ => write _) fun _ _ => bind (inForm h) fun _ _ => write _)

theorem visitSubmitButton {action value : Option Binding} (haction : ∀ b ∈ action, b.Answered r warm)
    (hvalue : ∀ b ∈ value, b.Answered r warm) (phase : Phase) :
    Sure r warm (Found.Good r warm) (visitSubmitButton r action value phase) := by
  cases phase with
  | take => exact nothing
  | invoke =>
    cases action with
    | none => exact nothing
    | some a =>
      refine get fun s => ?_
      split
      · exact found (perform (haction a rfl))
      · exact nothing
  | render =>
    refine ofPass (get fun s => ?_)
    cases value with
    | none => exact bind (Q := fun _ => True) (pure trivial) fun _ _ => write _
    | some b => exact bind (evaluateText (hvalue b rfl)) fun _ _ => write _

theorem setRound (item index : Option KeyPath) (i : Nat) (v : Value) :
    Sure r warm (fun _ => True) (setRound item index i v : Pass σ Unit) := by
  cases item with
  | none =>
    cases index with
    | none => exact pure trivial
    | some q => exact setPath q _
  | some p =>
    refine bind (setPath p v) fun _ _ => ?_
    cases index with
    | none => exact pure trivial
    | some q => exact setPath q _

theorem rounds (item index : Option KeyPath) {body : Pass σ (Found σ)} (h : Sure r warm (Found.Good r warm) body)
    (items : List Value) (i : Nat) : Sure r warm (Found.Good r warm) (rounds item index body i items) := by
  induction items generalizing i with
  | nil => exact nothing
  | cons v rest ih =>
    refine bind (setRound item index i v) fun _ _ => bind h fun o ho => ?_
    cases o with
    | some o => exact pure ho
    | none => exact bind toNext fun _ _ => ih (i + 1)

theorem listItems {list : Binding} (hlist : list.Answered r warm) :
    Sure r warm (fun _ => True) (listItems r.helpers list : Pass σ (List Value)) := by
  refine bind (evaluate hlist) fun v _ => ?_
  cases v with
  | null => exact pure trivial
  | list items => exact pure trivial
  | _ => exact throw rfl

theorem visitRepetition {list : Binding} (hlist : list.Answered r warm) (item index : Option KeyPath)
    {content : Option (Pass σ (Found σ))} (h : ∀ p ∈ content, Sure r warm (Found.Good r warm) p) (phase : Phase) :
    Sure r warm (Found.Good r warm) (visitRepetition r.helpers list item index content phase) := by
  cases content with
  | none => exact nothing
  | some body =>
    exact bind (listItems hlist) fun items _ => below (rounds item index (part (h body rfl) phase) items 0)

theorem visitConditional {condition : Binding} {negate : Option Binding} {content : Pass σ (Found σ)}
    (hcondition : condition.Answered r warm) (hnegate : ∀ b ∈ negate, b.Answered r warm)
    (h : Sure r warm (Found.Good r warm) content) :
    Sure r warm (Found.Good r warm) (visitConditional r.helpers condition negate content) := by
  have hshown : Sure r warm (fun _ => True) (isShown r.helpers condition negate : Pass σ Bool) :=
    bind (evaluateFlag (fun _ hb => Option.some.inj hb ▸ hcondition) _) fun _ _ =>
      bind (evaluateFlag hnegate _) fun _ _ => pure trivial
  refine bind hshown fun b _ => ?_
  cases b with
  | false => exact nothing
  | true => exact h

theorem visitUpdateContainer {id : Binding} {elementName : Option Binding} {content : Pass σ (Found σ)}
    (hid : id.Answered r warm) (hname : ∀ b ∈ elementName, b.Answered r warm)
    (h : Sure r warm (Found.Good r warm) content)
    (phase : Phase) : Sure r warm (Found.Good r warm) (visitUpdateContainer r.helpers id elementName content phase) := by
  cases phase with
  | render =>
    have hopen : ∀ id name, Sure r warm (fun _ => True) (do
        modify fun s => (s.mapContext (·.enterContainer id)).mute
        Pass.write (Text.tag name [("id", some id)] false)
        return name : Pass σ String) := fun id name =>
      bind (change fun _ hs => hs.same rfl rfl rfl) fun _ _ => bind (write _) fun _ _ => pure trivial
    refine bind (Q := fun _ => True) (bind (evaluateText hid) fun id _ => ?_) fun name _ =>
      ensuring h fun _ hs => hs.same rfl rfl rfl
    cases elementName with
    | none => exact bind (Q := fun _ => True) (pure trivial) fun name _ => hopen id name
    | some b => exact bind (evaluateText (hname b rfl)) fun name _ => hopen id name
  | _ => exact h

theorem writeAll (writes : List (Binding × Value)) : Sure r warm (fun _ => True) (writeAll writes : Pass σ Unit) := by
  induction writes with
  | nil => exact pure trivial
  | cons w rest ih => exact bind (setBinding w.1 w.2) fun _ _ => ih

theorem visitWidget {w : Widget} {bs : Bindings} (h : ∀ place a, w.action place bs = some a → a.Answered r warm)
    (phase : Phase) : Sure r warm (Found.Good r warm) (visitWidget r w bs phase) := by
  cases phase with
  | take => exact ofPass (get fun _ => writeAll _)
  | invoke =>
    refine get fun s => ?_
    split
    · rename_i a ha
      exact found (perform (h _ a ha))
    · exact nothing
  | render => exact ofPass (get fun _ => write _)

/-! ## Components in templates -/

theorem arrive (hk : r.Keyed) (name : String) {bs : Bindings} {content : Option Element}
    (hbs : warm → bs.Known r.helpers) (hcontent : ∀ e ∈ content, e.Fit r warm) :
    Sure r warm (Element.Fit r warm) (arrive r name bs content) := by
  intro s hs
  rw [on_arrive]
  rcases hd : r.resolveComponent name with e | d
  · exact ⟨hs, Registry.harmless_of_not rfl⟩
  have hcompiled := hs.compiled hk hd
  have hkept := hs.get hk hd
  obtain ⟨hmade, hreceived⟩ := (hs.childAt hd).receive s.current.state hbs
  dsimp only
  rcases hget : (Templates.get r d s.templates).1 with error | template <;> rw [hget] at hkept
  · exact ⟨hcompiled, hkept⟩
  dsimp only
  rcases hr : Instance.receive r.helpers s.current.state bs (childAt d s) with ⟨⟨f | _, child⟩, es⟩ <;>
    rw [hr] at hmade hreceived
  · have hevents : ((s.compiled r d).addEvents es).Ready r warm := hcompiled.same rfl rfl rfl
    exact ⟨(hevents.without _).putChild _ hmade, hreceived⟩
  · have hevents : ((s.compiled r d).addEvents es).Ready r warm := hcompiled.same rfl rfl rfl
    exact ⟨hevents.pushed _ hmade hcontent, hkept⟩

theorem depart (bs : Bindings) : Sure r warm (r.Grants warm fun _ => True) (depart bs : Pass σ _) := by
  intro s hs
  rw [on_depart]
  rcases hframes : s.frames with _ | ⟨f, rest⟩
  · exact ⟨hs, Registry.harmless_of_not rfl⟩
  obtain ⟨hinner, -, hpopped⟩ := hs.popped hframes
  obtain ⟨ht, hgrants⟩ := pullBindings f.inner.state bs _ hpopped
  exact ⟨ht.putChild _ hinner, hgrants⟩

theorem enter (hk : r.Keyed) {run : Element → Pass σ α} (name : String) {bs : Bindings} {content : Option Element}
    (hbs : warm → bs.Known r.helpers) (hcontent : ∀ e ∈ content, e.Fit r warm)
    (h : ∀ e : Element, e.Fit r warm → Sure r warm Q (run e)) : Sure r warm Q (enter r name bs content run) :=
  bind (arrive hk name hbs hcontent) fun template ht => bind (attempt (h template ht)) fun _ hresult =>
    bind (depart bs) fun _ hpulled => bind (lift hresult) fun _ ha => bind (lift hpulled) fun _ _ => pure ha

/-! ## Traversals -/

/-- If the bindings of a control are checked, it evaluates none that calls an unknown helper. -/
theorem visitControl {c : Control} (hc : warm → c.Checked r) {run : Element → Pass σ (Found σ)}
    (hrun : ∀ e : Element, e.Fit r warm → Sure r warm (Found.Good r warm) (run e)) (phase : Phase)
    {content : Option (Pass σ (Found σ))} (h : ∀ p ∈ content, Sure r warm (Found.Good r warm) p) :
    Sure r warm (Found.Good r warm) (c.visit r run phase content) := by
  have hinside : Sure r warm (Found.Good r warm) (content.getD Walk.nothing) := by
    cases content with
    | none => exact nothing
    | some p => exact h p rfl
  have hanswered : ∀ b ∈ c.evaluated, b.Answered r warm := fun b hb =>
    Binding.answered_of_known fun hwarm => (hc hwarm).known b hb
  have hoption : ∀ {bs : Option Binding}, (∀ b ∈ bs.toList, b.Answered r warm) → ∀ b ∈ bs, b.Answered r warm :=
    fun hbs b hb => hbs b (Option.mem_toList.mpr hb)
  cases c with
  | string value escape whenEmpty =>
    obtain ⟨hvalue, hothers⟩ := List.forall_mem_cons.mp hanswered
    obtain ⟨hescape, hempty⟩ := List.forall_mem_append.mp hothers
    exact visitString hvalue (hoption hescape) (hoption hempty) phase
  | textField value name =>
    obtain ⟨hvalue, hname⟩ := List.forall_mem_cons.mp hanswered
    exact visitTextField hvalue (hoption hname) phase
  | hyperlink target label =>
    obtain ⟨htarget, hlabel⟩ := List.forall_mem_cons.mp hanswered
    exact visitHyperlink htarget (hoption hlabel) hinside phase
  | form action => exact visitForm (hoption hanswered) hinside phase
  | submitButton action value =>
    obtain ⟨haction, hvalue⟩ := List.forall_mem_append.mp hanswered
    exact visitSubmitButton (hoption haction) (hoption hvalue) phase
  | repetition list item index => exact visitRepetition (hanswered list List.mem_cons_self) item index h phase
  | conditional condition negate =>
    obtain ⟨hcondition, hnegate⟩ := List.forall_mem_cons.mp hanswered
    exact visitConditional hcondition (hoption hnegate) hinside
  | componentContent => exact inParent (fun _ ho => absurd ho (Option.not_mem_none _)) hrun
  | updateContainer id name =>
    obtain ⟨hid, hname⟩ := List.forall_mem_cons.mp hanswered
    exact visitUpdateContainer hid (hoption hname) hinside phase
  | widget typeName tag bs =>
    rw [Control.visit]
    rcases hw : r.widget? typeName with _ | w
    · exact nothing
    · refine visitWidget (fun place a ha hwarm name hname _ => ?_) phase
      obtain ⟨w', accepted, hw', hknown, haccept⟩ := (hc hwarm).widget typeName tag bs rfl
      rw [Registry.widget?, hw'] at hw
      cases hw
      exact .widget hw' hknown haccept ha hname

mutual

theorem visitWith (hk : r.Keyed) {run : Element → Pass σ (Found σ)}
    (hrun : ∀ e : Element, e.Fit r warm → Sure r warm (Found.Good r warm) (run e)) (phase : Phase) :
    ∀ e : Element, e.Fit r warm → Sure r warm (Found.Good r warm) (e.visitWith r run phase)
  | .text s, _ => by
    cases phase with
    | render => exact ofPass (write s)
    | _ => exact nothing
  | .group _ children, he => below (visitAll hk hrun phase children fun e hmem hwarm => (he hwarm).of_group e hmem)
  | .component _ name bs content, he =>
    enter hk name (fun hwarm => (he hwarm).of_component.2.1) (fun e hmem hwarm => (he hwarm).of_component.2.2 e hmem) hrun
  | .control c content, he =>
    visitControl (fun hwarm => (he hwarm).of_control.1) hrun phase
      (visitContent hk hrun phase content fun e hmem hwarm => (he hwarm).of_control.2 e hmem)

theorem visitAll (hk : r.Keyed) {run : Element → Pass σ (Found σ)}
    (hrun : ∀ e : Element, e.Fit r warm → Sure r warm (Found.Good r warm) (run e)) (phase : Phase) :
    ∀ es : List Element, (∀ e ∈ es, e.Fit r warm) → Sure r warm (Found.Good r warm) (Element.visitAll r run phase es)
  | [], _ => nothing
  | e :: rest, hes => by
    obtain ⟨he, hrest⟩ := List.forall_mem_cons.mp hes
    refine bind (part (visitWith hk hrun phase e he) phase) fun o ho => ?_
    cases o with
    | some o => exact pure ho
    | none => exact bind toNext fun _ _ => visitAll hk hrun phase rest hrest

theorem visitContent (hk : r.Keyed) {run : Element → Pass σ (Found σ)}
    (hrun : ∀ e : Element, e.Fit r warm → Sure r warm (Found.Good r warm) (run e)) (phase : Phase) :
    ∀ content : Option Element, (∀ e ∈ content, e.Fit r warm) →
      ∀ p ∈ Element.visitContent r run phase content, Sure r warm (Found.Good r warm) p
  | none, _, _, h => by cases h
  | some e, he, _, h => by
    cases h
    exact visitWith hk hrun phase e (he e rfl)

end

theorem visit (hk : r.Keyed) (phase : Phase) (depth : Nat) {e : Element} (he : e.Fit r warm) :
    Sure r warm (Found.Good r warm) (e.visit r phase depth) := by
  induction depth generalizing e with
  | zero => exact throw rfl
  | succ n ih => exact visitWith hk (fun e he => ih he) phase e he

theorem pageTemplate (hk : r.Keyed) : Sure r warm (Element.Fit r warm) (pageTemplate r : Pass σ Element) := by
  intro s hs
  rw [on_pageTemplate]
  rcases hd : r.resolveComponent s.page.name with e | d
  · exact ⟨hs, Registry.harmless_of_not rfl⟩
  have hcompiled := hs.compiled hk hd
  have hkept := hs.get hk hd
  dsimp only
  rcases hget : (Templates.get r d s.templates).1 with error | template <;> rw [hget] at hkept
  · exact ⟨hcompiled, hkept⟩
  · exact ⟨hcompiled.same rfl rfl rfl, hkept⟩

/-- No traversal of a page meets a fault of a template. -/
theorem walkPage (hk : r.Keyed) (phase : Phase) : Sure r warm (Found.Good r warm) (walkPage r phase) :=
  bind (pageTemplate hk) fun _ he => visit hk phase r.maxDepth he

theorem renderPage (hk : r.Keyed) : Sure r warm (fun _ => True) (renderPage r) :=
  bind (change fun _ hs => hs.same rfl rfl rfl) fun _ _ =>
    bind (change fun _ hs => hs.same rfl rfl rfl) fun _ _ =>
      bind (walkPage hk .render) fun _ _ => get fun _ => pure trivial

end Pass.Sure

end PageServer
