/-
  PageServer.Proofs.Kept — what holds between the scenes before and after every traversal.

  `Kept R` lists what a relation of two scenes has to withstand: each step that changes a scene,
  and the bracket that each way down puts around what is visited there. `Kept.visit` is the one
  induction over elements, rounds and nested components from which the relation follows for whole
  traversals, whether they end well or not.
-/

import PageServer.Proofs.Pass

namespace PageServer

variable {σ : Type}

/-- The scenes on one level of elements that a walk gets to from `s`: it comes to elements next to
    each other, and each visit keeps `R`. -/
inductive Along (R : Scene σ → Scene σ → Prop) (s : Scene σ) : Scene σ → Prop
  | refl : Along R s s
  | visit {t u : Scene σ} : Along R s t → R t u → Along R s u
  | next {t : Scene σ} : Along R s t → Along R s (t.mapContext Context.next)

/-- What a relation of two scenes has to withstand to hold across the steps that stay in place and
    perform no action. -/
structure Plain [Component σ] (R : Scene σ → Scene σ → Prop) : Prop where
  refl : ∀ s, R s s
  trans : ∀ {s t u}, R s t → R t u → R s u
  sets : ∀ s es, (∀ e ∈ es, e.isPerform = false) → R s (s.addEvents es)
  takes : ∀ s key v x, Component.take s.current.state key v = .ok x → R s (s.withState x)
  response : ∀ s x, R s { s with response := x }
  url : ∀ s, R s { s with context := s.context.url.2 }

/-- What it has to withstand across all steps that stay in place. -/
structure InPlace [Component σ] (r : Registry σ) (R : Scene σ → Scene σ → Prop) : Prop extends Plain R where
  performs : ∀ s name, R s (s.acted name)
  templates : ∀ s name d, r.resolveComponent name = .ok d →
    R s { s with templates := (Templates.get r d s.templates).2 }

/-- What it has to withstand on top of that to hold between the ends of every traversal. -/
structure Kept [Component σ] (r : Registry σ) (R : Scene σ → Scene σ → Prop) : Prop extends InPlace r R where
  level : ∀ s t, Along R (s.mapContext Context.down) t → R s (t.mapContext Context.up)
  form : ∀ s t, R (s.mapContext (·.withInForm true)) t → R s (t.mapContext (·.withInForm false))
  container : ∀ s id t, R (s.mapContext (·.enterContainer id)) t → R s (t.mapContext Context.leaveContainer)
  /-- A component that does not take its values is put back at once. -/
  refused : ∀ s key child, R s (Pass.putChild key child (s.without key))
  left : ∀ s key child content t, R (s.pushed key child content) t →
    (t.frames = [] → R s t) ∧
    ∀ f rest, t.frames = f :: rest → ∀ u, R { t with frames := rest } u →
      R s (Pass.putChild f.key f.inner u)
  aside : ∀ s f rest t, s.frames = f :: rest → R { s with frames := rest } t →
    R s { t with frames := f :: t.frames }

namespace Pass

/-- Whatever comes of `p`, `R` holds between the scenes before and after it. -/
def Within {α : Type} (R : Scene σ → Scene σ → Prop) (p : Pass σ α) : Prop := ∀ s, R s (p.on s).2

end Pass

/-! ## Steps -/

namespace Pass.Within

open Walk

variable {R : Scene σ → Scene σ → Prop} {α β : Type}

/-- A step that looks at the scene first. -/
theorem get {f : Scene σ → Pass σ β} (h : ∀ s, R s ((f s).on s).2) : Within R (do f (← get)) := by
  intro s
  rw [on_bind, on_get]
  exact h s

section Plain

variable [Component σ] {r : Registry σ} (k : Plain R)
include k

theorem reads {p : Pass σ α} (h : ∀ s, (p.on s).2 = s) : Within R p := by
  intro s
  rw [h s]
  exact k.refl s

theorem pure (a : α) : Within R (pure a : Pass σ α) := reads k fun _ => rfl

theorem throw (e : Failure) : Within R (throw e : Pass σ α) := reads k fun _ => rfl

theorem bind {p : Pass σ α} {f : α → Pass σ β} (hp : Within R p) (hf : ∀ a, Within R (f a)) :
    Within R (p >>= f) := by
  intro s
  rw [on_bind]
  have h := hp s
  rcases hps : p.on s with ⟨e | a, t⟩
  · rwa [hps] at h
  · rw [hps] at h
    exact k.trans h (hf a t)

theorem ofPass {p : Pass σ Unit} (h : Within R p) : Within R (ofPass p) := bind k h fun _ => pure k _

theorem part {p : Pass σ (Found σ)} (h : Within R p) (phase : Phase) : Within R (part phase p) := by
  cases phase with
  | take => exact h
  | render => exact h
  | invoke =>
    refine get fun s => ?_
    split
    · exact h s
    · exact k.refl s

theorem write (text : String) : Within R (write text : Pass σ Unit) := fun s => k.response s _

theorem url : Within R (url : Pass σ String) := fun s => k.url s

theorem openForm : Within R (Control.openForm : Pass σ Unit) := bind k (url k) fun _ => write k _

theorem evaluate (hs : Helpers) (b : Binding) : Within R (evaluate hs b : Pass σ Value) :=
  reads k fun s => by simp

theorem evaluateText (hs : Helpers) (b : Binding) : Within R (evaluateText hs b : Pass σ String) :=
  reads k fun s => by simp

theorem evaluateFlag (hs : Helpers) (b : Option Binding) (d : Bool) :
    Within R (evaluateFlag hs b d : Pass σ Bool) := reads k fun s => evaluateFlag_keeps s hs b d

theorem setKey (key : String) (v : Value) : Within R (setKey key v : Pass σ Unit) := by
  intro s
  rw [on_setKey]
  have he : R s (s.addEvents [.set s.current.name key v]) := k.sets s _ (by simp [Event.isPerform])
  rcases ht : Component.take s.current.state key v with e | x
  · exact he
  · exact k.trans he (k.takes _ key v x ht)

theorem setPath (p : KeyPath) (v : Value) : Within R (setPath p v : Pass σ Unit) := by
  intro s
  rw [on_setPath]
  cases p.rootFor v s.current.state with
  | error e => exact k.refl s
  | ok root => exact setKey k p.first root s

theorem setBinding (b : Binding) (v : Value) : Within R (setBinding b v : Pass σ Unit) := by
  unfold Pass.setBinding
  split
  · exact setPath k _ v
  · exact throw k _

theorem pullBindings (child : σ) (bs : Bindings) : Within R (pullBindings child bs) := by
  induction bs with
  | nil => exact pure k ()
  | cons b rest ih =>
    obtain ⟨key, b⟩ := b
    intro s
    rw [on_pullBindings_cons]
    split
    · exact bind k (setPath k _ _) (fun _ => ih) s
    · exact ih s

open Control

theorem visitString (value : Binding) (escape whenEmpty : Option Binding) (phase : Phase) :
    Within R (visitString r.helpers value escape whenEmpty phase : Pass σ (Found σ)) := by
  cases phase with
  | take => exact pure k none
  | invoke => exact pure k none
  | render =>
    refine ofPass k (bind k (evaluateText k _ _) fun text => ?_)
    have hw : ∀ text, Within R (do
        if ← Pass.evaluateFlag r.helpers escape true then Pass.write (Text.htmlEscape text)
        else Pass.write text : Pass σ Unit) := fun text =>
      bind k (evaluateFlag k _ _ _) fun b => by cases b <;> exact write k _
    dsimp only
    split
    · split
      · exact bind k (evaluateText k _ _) fun text => hw text
      · exact hw text
    · exact hw text

theorem fieldName (name : Option Binding) : Within R (fieldName r.helpers name : Pass σ String) := by
  cases name with
  | none => exact reads k fun _ => rfl
  | some b => exact evaluateText k _ b

theorem visitTextField (value : Binding) (name : Option Binding) (phase : Phase) :
    Within R (visitTextField r.helpers value name phase : Pass σ (Found σ)) := by
  cases phase with
  | invoke => exact pure k none
  | take =>
    refine ofPass k ?_
    split
    · refine bind k (fieldName k name) fun n => get fun s => ?_
      split
      · exact setBinding k _ _ s
      · exact k.refl s
    · exact pure k ()
  | render =>
    exact ofPass k (bind k (fieldName k name) fun _ => bind k (evaluateText k _ _) fun _ => write k _)

theorem openLink (target : Target) : Within R (openLink r.helpers target : Pass σ Unit) := by
  refine bind k ?_ fun _ => write k _
  cases target with
  | action a => exact url k
  | href b => exact evaluateText k _ b
  | directAction b => exact bind k (evaluateText k _ b) fun _ => pure k _

theorem setRound (item index : Option KeyPath) (i : Nat) (v : Value) :
    Within R (setRound item index i v : Pass σ Unit) := by
  cases item with
  | none =>
    cases index with
    | none => exact pure k ()
    | some q => exact setPath k q _
  | some p =>
    refine bind k (setPath k p v) fun _ => ?_
    cases index with
    | none => exact pure k ()
    | some q => exact setPath k q _

theorem isShown (condition : Binding) (negate : Option Binding) :
    Within R (isShown r.helpers condition negate : Pass σ Bool) :=
  bind k (evaluateFlag k _ _ _) fun _ => bind k (evaluateFlag k _ _ _) fun _ => pure k _

theorem visitConditional (condition : Binding) (negate : Option Binding) {content : Pass σ (Found σ)}
    (h : Within R content) : Within R (visitConditional r.helpers condition negate content) := by
  refine bind k (isShown k condition negate) fun b => ?_
  cases b
  · exact pure k none
  · exact h

theorem writeAll (writes : List (Binding × Value)) : Within R (writeAll writes : Pass σ Unit) := by
  induction writes with
  | nil => exact pure k ()
  | cons w rest ih => exact bind k (setBinding k w.1 w.2) fun _ => ih

end Plain

/-! ## Controls with actions -/

section InPlace

variable [Component σ] {r : Registry σ} (k : InPlace r R)
include k

theorem perform (a : Binding) : Within R (perform r a) := by
  intro s
  rw [on_perform]
  split
  · exact k.refl s
  · rename_i name _
    have ha : R s (s.acted name) := k.performs s name
    split
    · exact ha
    · exact k.trans ha (k.sets _ _ (ofReply_sets r _))

open Control

theorem submitForm (action : Option Binding) : Within R (submitForm r action) := by
  refine get fun s => ?_
  split
  · split
    · exact bind k.toPlain (perform k _) (fun _ => pure k.toPlain _) s
    · exact k.refl s
  · exact k.refl s

theorem visitSubmitButton (action value : Option Binding) (phase : Phase) :
    Within R (visitSubmitButton r action value phase) := by
  cases phase with
  | take => exact pure k.toPlain none
  | invoke =>
    cases action with
    | none => exact pure k.toPlain none
    | some a =>
      refine get fun s => ?_
      split
      · exact bind k.toPlain (perform k a) (fun _ => pure k.toPlain _) s
      · exact k.refl s
  | render =>
    refine ofPass k.toPlain (get fun s => ?_)
    split
    · exact bind k.toPlain (evaluateText k.toPlain _ _) (fun _ => write k.toPlain _) s
    · exact write k.toPlain _ s

theorem visitWidget (w : Widget) (bs : Bindings) (phase : Phase) :
    Within R (visitWidget r w bs phase) := by
  cases phase with
  | take => exact ofPass k.toPlain (get fun s => writeAll k.toPlain _ s)
  | invoke =>
    refine get fun s => ?_
    split
    · exact bind k.toPlain (perform k _) (fun _ => pure k.toPlain _) s
    · exact k.refl s
  | render => exact ofPass k.toPlain (get fun s => write k.toPlain _ s)

end InPlace

/-! ## Ways down -/

variable [Component σ] {r : Registry σ} (k : Kept r R)
include k

theorem enter (name : String) (bs : Bindings) (content : Option Element)
    {run : Element → Pass σ α} (hrun : ∀ e, Within R (run e)) : Within R (enter r name bs content run) := by
  intro s
  rw [on_enter, on_arrive]
  rcases hr : r.resolveComponent name with e | d
  · exact k.refl s
  have hd : R s (s.compiled r d) := k.templates s name d hr
  dsimp only
  rcases (Templates.get r d s.templates).1 with e | template
  · exact hd
  dsimp only
  have hs := receive_sets r.helpers s.current.state bs (childAt d s)
  rcases hr : Instance.receive r.helpers s.current.state bs (childAt d s) with ⟨⟨e | _, child⟩, es⟩
  · rw [hr] at hs
    exact k.trans (k.trans hd (k.sets _ es hs)) (k.refused _ _ child)
  · rw [hr] at hs
    dsimp only
    have ht : R s ((s.compiled r d).addEvents es) := k.trans hd (k.sets _ es hs)
    generalize (s.compiled r d).addEvents es = t at ht ⊢
    have hu := hrun template (t.pushed s.context.elementId.text child content)
    rcases hx : (run template).on (t.pushed s.context.elementId.text child content) with ⟨x, u⟩
    rw [hx] at hu
    dsimp only
    rw [on_depart]
    obtain ⟨hnil, hcons⟩ := k.left t s.context.elementId.text child content u hu
    rcases hf : u.frames with _ | ⟨f, rest⟩
    · exact k.trans ht (hnil hf)
    · exact k.trans ht (hcons f rest hf _ (pullBindings k.toPlain f.inner.state bs _))

theorem inParent {run : Element → Pass σ α} (default : α) (hrun : ∀ e, Within R (run e)) :
    Within R (inParent default run) := by
  intro s
  rw [on_inParent]
  rcases hf : s.frames with _ | ⟨f, rest⟩
  · exact k.refl s
  dsimp only
  rcases f.content with _ | e
  · exact k.refl s
  · exact k.aside s f rest _ hf (hrun e _)

theorem below {p : Pass σ α} (h : ∀ s, Along R s (p.on s).2) : Within R (below p) := by
  intro s
  rw [on_below]
  exact k.level s _ (h _)

theorem inForm {p : Pass σ α} (h : Within R p) : Within R (inForm p) := by
  intro s
  rw [on_inForm]
  exact k.form s _ (h _)

/-! ## Controls -/

section Controls

open Control

theorem visitHyperlink (target : Target) (label : Option Binding) {content : Pass σ (Found σ)}
    (h : Within R content) (phase : Phase) : Within R (visitHyperlink r target label content phase) := by
  cases phase with
  | take => exact pure k.toPlain none
  | invoke =>
    cases target with
    | action a =>
      refine get fun s => ?_
      split
      · exact bind k.toPlain (perform k.toInPlace a) (fun _ => pure k.toPlain _) s
      · exact k.refl s
    | href b => exact pure k.toPlain none
    | directAction b => exact pure k.toPlain none
  | render =>
    refine ofPass k.toPlain (bind k.toPlain (openLink k.toPlain target) fun _ => ?_)
    split
    · exact bind k.toPlain (evaluateText k.toPlain _ _) fun _ =>
        bind k.toPlain (write k.toPlain _) fun _ => write k.toPlain _
    · exact bind k.toPlain h fun _ => write k.toPlain _

theorem visitForm (action : Option Binding) {content : Pass σ (Found σ)}
    (h : Within R content) (phase : Phase) : Within R (visitForm r action content phase) := by
  cases phase with
  | take => exact inForm k h
  | invoke =>
    refine inForm k (bind k.toPlain h fun o => ?_)
    split
    · exact pure k.toPlain _
    · exact submitForm k.toInPlace action
  | render =>
    exact ofPass k.toPlain (bind k.toPlain (openForm k.toPlain) fun _ =>
      bind k.toPlain (inForm k h) fun _ => write k.toPlain _)

/-- Round after round, each in its own position. -/
theorem rounds (item index : Option KeyPath) {body : Pass σ (Found σ)} (h : Within R body)
    (items : List Value) (i : Nat) {s t : Scene σ} (ht : Along R s t) :
    Along R s ((rounds item index body i items).on t).2 := by
  induction items generalizing i t with
  | nil => exact ht
  | cons v rest ih =>
    rw [on_rounds_cons]
    have h1 := Along.visit ht (setRound k.toPlain item index i v t)
    rcases hr : (Control.setRound item index i v).on t with ⟨e | _, t1⟩ <;> rw [hr] at h1
    · exact h1
    · have h2 := Along.visit h1 (h t1)
      dsimp only
      rcases hb : body.on t1 with ⟨e | _ | o, t2⟩ <;> rw [hb] at h2
      · exact h2
      · exact ih (i + 1) (Along.next h2)
      · exact h2

theorem visitRepetition (list : Binding) (item index : Option KeyPath)
    {content : Option (Pass σ (Found σ))} (h : ∀ p ∈ content, Within R p) (phase : Phase) :
    Within R (visitRepetition r.helpers list item index content phase) := by
  cases content with
  | none => exact pure k.toPlain none
  | some body =>
    refine bind k.toPlain (bind k.toPlain (evaluate k.toPlain _ _) fun v => ?_) fun items => below k fun s => ?_
    · split
      · exact pure k.toPlain _
      · exact pure k.toPlain _
      · exact throw k.toPlain _
    · exact rounds k item index (part k.toPlain (h body rfl) phase) items 0 .refl

theorem visitUpdateContainer (id : Binding) (elementName : Option Binding)
    {content : Pass σ (Found σ)} (h : Within R content) (phase : Phase) :
    Within R (visitUpdateContainer r.helpers id elementName content phase) := by
  cases phase with
  | take => exact h
  | invoke => exact h
  | render =>
    intro s
    rw [Control.visitUpdateContainer, on_bind]
    rcases on_openContainer s r.helpers id elementName with ⟨e, ho⟩ | ⟨id', name, x, ho⟩
    · rw [ho]
      exact k.refl s
    · rw [ho]
      dsimp only
      rw [on_ensuring]
      have ht := k.trans (k.response (s.mapContext (·.enterContainer id')) x) (h _)
      exact k.trans (k.container s id' _ (k.trans ht (k.response _ _))) (k.response _ _)

theorem visit (c : Control) {run : Element → Pass σ (Found σ)} (hrun : ∀ e, Within R (run e))
    {content : Option (Pass σ (Found σ))} (h : ∀ p ∈ content, Within R p) (phase : Phase) :
    Within R (c.visit r run phase content) := by
  have hi : Within R (content.getD nothing) := by
    cases content with
    | none => exact pure k.toPlain none
    | some p => exact h p rfl
  cases c with
  | string value escape whenEmpty => exact visitString k.toPlain value escape whenEmpty phase
  | textField value name => exact visitTextField k.toPlain value name phase
  | hyperlink target label => exact visitHyperlink k target label hi phase
  | form action => exact visitForm k action hi phase
  | submitButton action value => exact visitSubmitButton k.toInPlace action value phase
  | repetition list item index => exact visitRepetition k list item index h phase
  | conditional condition negate => exact visitConditional k.toPlain condition negate hi
  | componentContent => exact inParent k none hrun
  | updateContainer id name => exact visitUpdateContainer k id name hi phase
  | widget typeName tag bindings =>
    simp only [Control.visit]
    split
    · exact visitWidget k.toInPlace _ bindings phase
    · exact pure k.toPlain none

end Controls

end Pass.Within

/-! ## Traversals -/

namespace Kept

open Pass

variable [Component σ] {r : Registry σ} {R : Scene σ → Scene σ → Prop}

mutual

theorem visitWith (k : Kept r R) {run : Element → Pass σ (Found σ)} (hrun : ∀ e, Within R (run e))
    (phase : Phase) : ∀ e : Element, Within R (e.visitWith r run phase)
  | .text s => by
    cases phase with
    | take => exact .pure k.toPlain none
    | invoke => exact .pure k.toPlain none
    | render => exact .ofPass k.toPlain (.write k.toPlain s)
  | .group _ children => .below k fun _ => visitAll k hrun phase children .refl
  | .component _ name bs content => .enter k name bs content hrun
  | .control c content => .visit k c hrun (visitContent k hrun phase content) phase

/-- Child after child, each in its own position. -/
theorem visitAll (k : Kept r R) {run : Element → Pass σ (Found σ)} (hrun : ∀ e, Within R (run e))
    (phase : Phase) : ∀ (es : List Element) {s t : Scene σ}, Along R s t →
      Along R s ((Element.visitAll r run phase es).on t).2
  | [], _, _, ht => ht
  | e :: rest, s, t, ht => by
    rw [on_visitAll_cons]
    have h := Along.visit ht (Within.part k.toPlain (visitWith k hrun phase e) phase t)
    rcases hp : (Walk.part phase (e.visitWith r run phase)).on t with ⟨x | _ | o, u⟩ <;> rw [hp] at h
    · exact h
    · exact visitAll k hrun phase rest (.next h)
    · exact h

theorem visitContent (k : Kept r R) {run : Element → Pass σ (Found σ)} (hrun : ∀ e, Within R (run e))
    (phase : Phase) : ∀ content : Option Element,
      ∀ p ∈ Element.visitContent r run phase content, Within R p
  | none, _, h => by cases h
  | some e, _, h => by
    cases h
    exact visitWith k hrun phase e

end

/-- Every traversal keeps what every step keeps. -/
theorem visit (k : Kept r R) (phase : Phase) (depth : Nat) (e : Element) :
    Within R (e.visit r phase depth) := by
  induction depth generalizing e with
  | zero => exact .throw k.toPlain _
  | succ n ih => exact k.visitWith (fun e => ih e) phase e

end Kept

/-! ## Relations of what components have been asked to do -/

/-- `E` holds between what had been done in `s` and in `t`. -/
def Logged (E : List Event → List Event → Prop) (s t : Scene σ) : Prop := E s.events t.events

/-- What `E` has to withstand where no action is performed. -/
structure Log (E : List Event → List Event → Prop) : Prop where
  refl : ∀ l, E l l
  trans : ∀ {l m n}, E l m → E m n → E l n
  sets : ∀ l es, (∀ e ∈ es, e.isPerform = false) → E l (l ++ es)

namespace Log

variable {E : List Event → List Event → Prop} (g : Log E)
include g

theorem same {s t : Scene σ} (h : t.events = s.events) : Logged E s t := by
  unfold Logged
  rw [h]
  exact g.refl _

theorem plain [Component σ] : Plain (Logged E : Scene σ → Scene σ → Prop) where
  refl _ := g.refl _
  trans := g.trans
  sets s es h := g.sets s.events es h
  takes s _ _ _ _ := g.same (s.withCurrent_events _)
  response _ _ := g.refl _
  url _ := g.refl _

theorem along {s t : Scene σ} (h : Along (Logged E) s t) : Logged E s t := by
  induction h with
  | refl => exact g.refl _
  | visit _ hr ih => exact g.trans ih hr
  | next _ ih => exact ih

variable [Component σ]

theorem arrive (r : Registry σ) (name : String) (bs : Bindings) (content : Option Element) :
    Pass.Within (Logged E) (Pass.arrive r name bs content) := by
  intro s
  rw [Pass.on_arrive]
  rcases r.resolveComponent name with e | d
  · exact g.refl _
  dsimp only
  rcases (Templates.get r d s.templates).1 with e | template
  · exact g.refl _
  dsimp only
  have hs := Pass.receive_sets r.helpers s.current.state bs (Pass.childAt d s)
  rcases hr : Instance.receive r.helpers s.current.state bs (Pass.childAt d s) with ⟨⟨e | _, child⟩, es⟩ <;>
    rw [hr] at hs
  · refine g.trans (g.sets s.events es hs) (g.same (s := (s.compiled r d).addEvents es) ?_)
    simp [Pass.putChild, Scene.without]
  · refine g.trans (g.sets s.events es hs) (g.same (s := (s.compiled r d).addEvents es) ?_)
    exact Scene.withCurrent_events _ _

theorem depart (bs : Bindings) : Pass.Within (Logged E) (Pass.depart bs : Pass σ _) := by
  intro s
  rw [Pass.on_depart]
  rcases s.frames with _ | ⟨f, rest⟩
  · exact g.refl _
  · have h := Pass.Within.pullBindings g.plain f.inner.state bs { s with frames := rest }
    exact g.trans h (g.same (Scene.withCurrent_events _ _))

/-- If `E` withstands actions, too, it holds between the ends of every traversal. -/
theorem kept (r : Registry σ) (hperforms : ∀ l e, E l (l ++ [e])) : Kept r (Logged E) where
  toPlain := g.plain
  performs s name := g.trans (g.same (t := s.withState _) (s.withCurrent_events _)) (hperforms _ _)
  templates _ _ _ _ := g.refl _
  level s t h := show Logged E (s.mapContext Context.down) t from g.along h
  form _ _ h := h
  container _ _ _ h := h
  refused s key child := g.same (by simp [Pass.putChild, Scene.without])
  left s key child content t h := by
    have hs : (s.pushed key child content).events = s.events := Scene.withCurrent_events _ _
    have ht : Logged E s t := g.trans (g.same (t := s.pushed key child content) hs) h
    exact ⟨fun _ => ht, fun f rest _ u hu => g.trans (g.trans ht hu) (g.same (Scene.withCurrent_events _ _))⟩
  aside _ _ _ _ _ h := h

end Log

/-- `t` comes later than `s` in the same traversal. -/
abbrev Extends : Scene σ → Scene σ → Prop := Logged (· <+: ·)

theorem prefix_log : Log (· <+: ·) where
  refl _ := List.prefix_rfl
  trans := List.IsPrefix.trans
  sets _ _ _ := List.prefix_append _ _

theorem extends_kept [Component σ] (r : Registry σ) : Kept r (@Extends σ) :=
  prefix_log.kept r fun _ _ => List.prefix_append _ _

end PageServer
