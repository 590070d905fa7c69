/-
  PageServer.Proofs.Visits — where a traversal comes by.

  A `Visit` is an element with the scene in which a traversal comes to it; what the traversal does
  there is `Visit.run`. From a visit there are ways down: to the children of a group, to the
  rounds of a repetition, into the content of a control, into the template of a component, and
  from there back to what the component is wrapped around. `Visit.part?` is the visit that such
  a way leads to, if the traversal takes it, and `Visit.at?` follows a path of ways. It runs the
  very steps that the traversal takes before it gets there.

  A path tells the element id (`at?_elementId`), a visit in a form is on a path through one
  (`at?_inForm`), and nothing that is done at a visit is undone by what comes after it
  (`at?_run_extends`).
-/

import PageServer.Proofs.Balance
import PageServer.Scripted

namespace PageServer

/-- A way down from an element that a traversal visits. -/
inductive Way where
  | child (k : Nat)
  | round (i : Nat)
  /-- Into the content of a control other than a repetition. -/
  | inside
  | template
  /-- To what the current component is wrapped around. -/
  | content
  deriving DecidableEq, Repr

/-- The index that a way adds to the element id; most ways add none. -/
def Way.index? : Way → Option Nat
  | child k => some k
  | round i => some i
  | _ => none

abbrev Path := List Way

def Path.indices (π : Path) : List Nat := π.filterMap Way.index?

structure Visit (σ : Type) where
  /-- How deep components may be nested from here on. -/
  depth : Nat
  element : Element
  scene : Scene σ

variable {σ : Type}

/-- Whether a part that the traversal comes to is left out. -/
def Phase.visits (phase : Phase) (s : Scene σ) : Bool := phase != .invoke || s.context.onSenderPath

theorem Phase.visits_congr (phase : Phase) {s t : Scene σ} (hs : t.context.sender = s.context.sender)
    (hid : t.context.elementId.indices = s.context.elementId.indices) : phase.visits t = phase.visits s := by
  simp only [Phase.visits, Context.onSenderPath, ElementId.startsWith, hs, hid]

theorem Pass.on_part (phase : Phase) (p : Pass σ (Found σ)) (s : Scene σ) :
    (Walk.part phase p).on s = if phase.visits s then p.on s else (.ok none, s) := by
  cases phase with
  | take => rfl
  | render => rfl
  | invoke =>
    simp only [Walk.part, Phase.visits, Pass.on_bind, Pass.on_get]
    simp only [bne_self_eq_false, Bool.false_or]
    split <;> rfl

def Control.isForm : Control → Bool
  | .form _ => true
  | _ => false

theorem split_getElem? {α : Type} {l : List α} {k : Nat} {x : α} (h : l[k]? = some x) :
    l = l.take k ++ x :: l.drop (k + 1) := by
  obtain ⟨hk, rfl⟩ := List.getElem?_eq_some_iff.mp h
  rw [← List.drop_eq_getElem_cons hk, List.take_append_drop]

section Definitions

variable [Component σ]

/-- What a control does before its content is visited, and whether it is. -/
def Control.approach (r : Registry σ) (phase : Phase) : Control → Pass σ Bool
  | .hyperlink target label =>
    match phase, label with
    | .render, none => do
      openLink r.helpers target
      return true
    | _, _ => return false
  | .form _ => do
    if phase = .render then openForm
    modify (·.mapContext (·.withInForm true))
    return true
  | .conditional condition negate => isShown r.helpers condition negate
  | .updateContainer id name => do
    if phase = .render then let _ ← openContainer r.helpers id name
    return true
  | _ => return false

namespace Visit

/-- What the traversal does at a visit. -/
def run (r : Registry σ) (phase : Phase) (v : Visit σ) : Except Failure (Found σ) × Scene σ :=
  (v.element.visit r phase (v.depth + 1)).on v.scene

/-- The walk over elements of the template that the visit is in. -/
def walk (r : Registry σ) (phase : Phase) (v : Visit σ) : Element → Pass σ (Found σ) :=
  Element.visitWith r (Element.visit r phase v.depth) phase

def part? (r : Registry σ) (phase : Phase) (v : Visit σ) : Way → Option (Visit σ)
  | .child k =>
    match v.element with
    | .group _ children =>
      match children[k]?, (Element.visitAll r (Element.visit r phase v.depth) phase
          (children.take k)).on (v.scene.mapContext Context.down) with
      | some e, (.ok none, s) => if phase.visits s then some ⟨v.depth, e, s⟩ else none
      | _, _ => none
    | _ => none
  | .round i =>
    match v.element with
    | .control (.repetition list item index) (some e) =>
      match (Control.listItems r.helpers list).on v.scene with
      | (.ok items, s) =>
        match items[i]?, (Control.rounds item index (Walk.part phase (v.walk r phase e)) 0
            (items.take i)).on (s.mapContext Context.down) with
        | some x, (.ok none, s) =>
          match (Control.setRound item index i x).on s with
          | (.ok (), s) => if phase.visits s then some ⟨v.depth, e, s⟩ else none
          | _ => none
        | _, _ => none
      | _ => none
    | _ => none
  | .inside =>
    match v.element with
    | .control c (some e) =>
      match (c.approach r phase).on v.scene with
      | (.ok true, s) => some ⟨v.depth, e, s⟩
      | _ => none
    | _ => none
  | .template =>
    match v.element, v.depth with
    | .component _ name bindings content, depth + 1 =>
      match (Pass.arrive r name bindings content).on v.scene with
      | (.ok e, s) => some ⟨depth, e, s⟩
      | _ => none
    | _, _ => none
  | .content =>
    match v.element, v.depth, v.scene.frames with
    | .control .componentContent _, depth + 1, f :: rest =>
      f.content.map fun e => ⟨depth, e, { v.scene with frames := rest }⟩
    | _, _, _ => none

def at? (r : Registry σ) (phase : Phase) (v : Visit σ) : Path → Option (Visit σ)
  | [] => some v
  | w :: π => (v.part? r phase w).bind (·.at? r phase π)

end Visit

end Definitions

/-- Where a traversal of the page begins. -/
def pageVisit? (r : Registry σ) (s : Scene σ) : Option (Visit σ) :=
  match r.maxDepth, (Pass.pageTemplate r).on s with
  | depth + 1, (.ok e, t) => some ⟨depth, e, t⟩
  | _, _ => none

theorem pageVisit?_eq_some {r : Registry σ} {s : Scene σ} {v : Visit σ} :
    pageVisit? r s = some v ↔
      ∃ d, r.resolveComponent s.page.name = .ok d ∧ (Templates.get r d s.templates).1 = .ok v.element ∧
        r.maxDepth = v.depth + 1 ∧ v.scene = (s.compiled r d).mapContext Context.atRoot := by
  obtain ⟨depth, element, t⟩ := v
  unfold pageVisit?
  rw [Pass.on_pageTemplate]
  rcases r.maxDepth with _ | n
  · simp
  rcases r.resolveComponent s.page.name with x | d
  · simp
  dsimp only
  rcases hte : (Templates.get r d s.templates).1 with x | e
  · simp [hte]
  · constructor
    · intro h
      cases h
      exact ⟨d, rfl, hte, rfl, rfl⟩
    · rintro ⟨_, hd, hte', hn, rfl⟩
      cases hd
      cases hn
      rw [hte] at hte'
      cases hte'
      rfl

/-! ## The ways, case by case -/

section Parts

variable [Component σ] {r : Registry σ} {phase : Phase}

/-- What it takes for a control to have its content visited. -/
inductive Approached (r : Registry σ) : Phase → Control → Scene σ → Scene σ → Prop
  | link {s t : Scene σ} {target : Target} :
      (Control.openLink r.helpers target).on s = (.ok (), t) → Approached r .render (.hyperlink target none) s t
  | shownForm {s t : Scene σ} {action : Option Binding} :
      Control.openForm.on s = (.ok (), t) →
      Approached r .render (.form action) s (t.mapContext (·.withInForm true))
  | form {phase : Phase} {s : Scene σ} {action : Option Binding} :
      phase ≠ .render → Approached r phase (.form action) s (s.mapContext (·.withInForm true))
  | conditional {phase : Phase} {s : Scene σ} {condition : Binding} {negate : Option Binding} :
      (Control.isShown r.helpers condition negate).on s = (.ok true, s) →
      Approached r phase (.conditional condition negate) s s
  | shownContainer {s t : Scene σ} {id : Binding} {elementName : Option Binding} {name : String} :
      (Control.openContainer r.helpers id elementName).on s = (.ok name, t) →
      Approached r .render (.updateContainer id elementName) s t
  | container {phase : Phase} {s : Scene σ} {id : Binding} {elementName : Option Binding} :
      phase ≠ .render → Approached r phase (.updateContainer id elementName) s s

theorem approached {c : Control} {s t : Scene σ} (h : (c.approach r phase).on s = (.ok true, t)) :
    Approached r phase c s t := by
  cases c with
  | hyperlink target label =>
    cases phase with
    | render =>
      cases label with
      | none =>
        obtain ⟨_, u, hu, hx⟩ := Pass.on_bind_eq_ok.mp h
        cases hx
        exact .link hu
      | some b => cases h
    | _ => cases h
  | form action =>
    cases phase with
    | render =>
      simp only [Control.approach, if_true] at h
      obtain ⟨_, u, hu, hx⟩ := Pass.on_bind_eq_ok.mp h
      cases hx
      exact .shownForm hu
    | _ =>
      cases h
      exact .form (by decide)
  | conditional condition negate =>
    have hk := Pass.isShown_keeps s r.helpers condition negate
    rw [show (Control.isShown r.helpers condition negate).on s = _ from h] at hk
    cases hk
    exact .conditional h
  | updateContainer id name =>
    cases phase with
    | render =>
      simp only [Control.approach, if_true] at h
      obtain ⟨_, u, hu, hx⟩ := Pass.on_bind_eq_ok.mp h
      cases hx
      exact .shownContainer hu
    | _ =>
      cases h
      exact .container (by decide)
  | _ => cases h

/-- What it takes for a way to lead from one visit to another. -/
inductive Part (r : Registry σ) (phase : Phase) : Visit σ → Way → Visit σ → Prop
  | child {depth k : Nat} {s t : Scene σ} {name : Option String} {children : List Element} {e : Element} :
      children[k]? = some e →
      (Element.visitAll r (Element.visit r phase depth) phase (children.take k)).on
        (s.mapContext Context.down) = (.ok none, t) →
      phase.visits t = true →
      Part r phase ⟨depth, .group name children, s⟩ (.child k) ⟨depth, e, t⟩
  | round {depth i : Nat} {s t u : Scene σ} {list : Binding} {item index : Option KeyPath}
      {items : List Value} {x : Value} {e : Element} :
      (Control.listItems r.helpers list).on s = (.ok items, s) →
      items[i]? = some x →
      (Control.rounds item index (Walk.part phase (e.visitWith r (Element.visit r phase depth) phase)) 0
        (items.take i)).on (s.mapContext Context.down) = (.ok none, t) →
      (Control.setRound item index i x).on t = (.ok (), u) →
      phase.visits u = true →
      Part r phase ⟨depth, .control (.repetition list item index) (some e), s⟩ (.round i) ⟨depth, e, u⟩
  | inside {depth : Nat} {s t : Scene σ} {c : Control} {e : Element} :
      (c.approach r phase).on s = (.ok true, t) →
      Part r phase ⟨depth, .control c (some e), s⟩ .inside ⟨depth, e, t⟩
  | template {depth : Nat} {s t : Scene σ} {tag name : String} {bindings : Bindings}
      {content : Option Element} {e : Element} :
      (Pass.arrive r name bindings content).on s = (.ok e, t) →
      Part r phase ⟨depth + 1, .component tag name bindings content, s⟩ .template ⟨depth, e, t⟩
  | content {depth : Nat} {s : Scene σ} {c : Option Element} {f : Frame σ} {rest : List (Frame σ)}
      {e : Element} :
      s.frames = f :: rest → f.content = some e →
      Part r phase ⟨depth + 1, .control .componentContent c, s⟩ .content
        ⟨depth, e, { s with frames := rest }⟩

theorem part?_sound {v u : Visit σ} {w : Way} (h : v.part? r phase w = some u) : Part r phase v w u := by
  obtain ⟨depth, element, s⟩ := v
  cases w with
  | child k =>
    simp only [Visit.part?] at h
    split at h
    · split at h
      · split at h
        · rename_i hk hs hv
          cases h
          exact .child hk hs hv
        · cases h
      · cases h
    · cases h
  | round i =>
    simp only [Visit.part?] at h
    split at h
    · split at h
      · rename_i list item index e _ items t hl
        obtain rfl : s = t := by rw [← Pass.listItems_keeps s r.helpers list, hl]
        split at h
        · split at h
          · split at h
            · rename_i hi hr _ _ hset hv
              cases h
              exact .round hl hi hr hset hv
            · cases h
          · cases h
        · cases h
      · cases h
    · cases h
  | inside =>
    simp only [Visit.part?] at h
    split at h
    · split at h
      · rename_i hs
        cases h
        exact .inside hs
      · cases h
    · cases h
  | template =>
    simp only [Visit.part?] at h
    split at h
    · split at h
      · rename_i hs
        cases h
        exact .template hs
      · cases h
    · cases h
  | content =>
    simp only [Visit.part?] at h
    split at h
    · rename_i hf
      simp only [Option.map_eq_some_iff] at h
      obtain ⟨e, hc, rfl⟩ := h
      exact .content hf hc
    · cases h

theorem part?_eq_some {v u : Visit σ} {w : Way} : v.part? r phase w = some u ↔ Part r phase v w u := by
  constructor
  · exact part?_sound
  · intro h
    cases h with
    | child hk hs hv => simp [Visit.part?, hk, hs, hv]
    | round hl hi hr hset hv => simp [Visit.part?, Visit.walk, hl, hi, hr, hset, hv]
    | inside hs => simp [Visit.part?, hs]
    | template hs => simp [Visit.part?, hs]
    | content hf hc => simp [Visit.part?, hf, hc]

/-! ## What a way changes -/

def Element.isForm : Element → Bool
  | .control c _ => c.isForm
  | _ => false

/-- What a component is wrapped around where it is used. -/
def Element.wrapped : Element → Option Element
  | .component _ _ _ content => content
  | _ => none

/-- The places of the components on the stack at the end of a way. -/
def Visit.placesVia (v : Visit σ) : Way → List (String × Option Element)
  | .template => (v.scene.context.elementId.text, v.element.wrapped) :: v.scene.places
  | .content => v.scene.places.tail
  | _ => v.scene.places

/-- What one can tell of the visit `u` at the end of a way from the visit `v` at its start. -/
structure Below (v : Visit σ) (w : Way) (u : Visit σ) : Prop where
  elementId : u.scene.context.elementId.indices = v.scene.context.elementId.indices ++ w.index?.toList
  sender : u.scene.context.sender = v.scene.context.sender
  request : u.scene.context.request = v.scene.context.request
  inForm : u.scene.context.inForm = true →
    v.scene.context.inForm = true ∨ (w = .inside ∧ v.element.isForm = true)
  places : u.scene.places = v.placesVia w
  pageId : u.scene.context.pageId = v.scene.context.pageId

theorem Approached.below {c : Control} {e : Element} {depth : Nat} {s t : Scene σ}
    (h : Approached r phase c s t) : Below ⟨depth, .control c (some e), s⟩ .inside ⟨depth, e, t⟩ := by
  have hw : ∀ {c : Control} {s u : Scene σ}, Returns s u →
      Below ⟨depth, .control c (some e), s⟩ .inside ⟨depth, e, u⟩ :=
    fun hu => ⟨by simp [hu.elementId, Way.index?], hu.sender, hu.request, fun hf => .inl (hu.inForm hf),
      hu.places, hu.pageId⟩
  cases h with
  | @link _ _ target hs =>
    have hu := Pass.Within.openLink returns_plain (r := r) target s
    rw [hs] at hu
    exact hw hu
  | shownForm hs =>
    have hu := Pass.Within.openForm returns_plain s
    rw [hs] at hu
    exact ⟨(hw (c := .form none) hu).elementId, hu.sender, hu.request, fun _ => .inr ⟨rfl, rfl⟩, hu.places, hu.pageId⟩
  | form => exact ⟨by simp [Way.index?, Context.withInForm], rfl, rfl, fun _ => .inr ⟨rfl, rfl⟩, rfl, rfl⟩
  | conditional => exact hw (.refl s)
  | @shownContainer _ _ id elementName name hs =>
    rcases Pass.on_openContainer s r.helpers id elementName with ⟨_, ho⟩ | ⟨id', _, x, ho⟩ <;> rw [ho] at hs
    · cases hs
    · cases hs
      exact ⟨by simp [Way.index?, Context.enterContainer], rfl, rfl, .inl, rfl, rfl⟩
  | container => exact hw (.refl s)

theorem Part.below {v u : Visit σ} {w : Way} (h : Part r phase v w u) : Below v w u := by
  cases h with
  | @child depth k s t name children e hk hs hv =>
    have hb := visitAll_passed (fun e => (returns_kept r).visit phase depth e) hs
    refine ⟨?_, hb.sender, hb.request, fun hf => .inl (hb.inForm hf), hb.places, hb.pageId⟩
    have hlen : (children.take k).length = k := by
      obtain ⟨hlt, -⟩ := List.getElem?_eq_some_iff.mp hk
      simp; omega
    simpa [Way.index?, hlen] using hb.elementId s.context.elementId.indices 0 rfl
  | @round depth i s t u list item index items x e hl hi hr hset hv =>
    have hbody := (returns_kept r).visitWith (fun e => (returns_kept r).visit phase depth e) phase e
    have hset' := Pass.Within.setRound returns_plain item index i x t
    rw [hset] at hset'
    have hb := (rounds_passed (Pass.Within.part returns_plain hbody phase) hr).returns hset'
    refine ⟨?_, hb.sender, hb.request, fun hf => .inl (hb.inForm hf), hb.places, hb.pageId⟩
    have hlen : (items.take i).length = i := by
      obtain ⟨hlt, -⟩ := List.getElem?_eq_some_iff.mp hi
      simp; omega
    simpa [Way.index?, hlen] using hb.elementId s.context.elementId.indices 0 rfl
  | inside hs => exact (approached hs).below
  | @template depth s t tag name bindings content e hs =>
    obtain ⟨d, child, es, -, -, -, ht⟩ := Pass.arrive_ok hs
    have hc : t.context = s.context := by rw [ht]; exact Scene.without_context _ _
    refine ⟨by simp [hc, Way.index?], by rw [hc], by rw [hc], fun hf => .inl (hc ▸ hf), ?_, by rw [hc]⟩
    rw [ht, Scene.places_pushed]
    rfl
  | content hf hc =>
    refine ⟨by simp [Way.index?], rfl, rfl, .inl, ?_, rfl⟩
    simp [Visit.placesVia, Scene.places, hf]

/-! ## Down from a visit -/

/-- A way leads to a smaller element of the same template, or less deep into others. -/
theorem Part.smaller {v u : Visit σ} {w : Way} (h : Part r phase v w u) :
    u.depth < v.depth ∨ (u.depth = v.depth ∧ sizeOf u.element < sizeOf v.element) := by
  cases h with
  | child hk =>
    have := List.sizeOf_lt_of_mem (List.mem_of_getElem? hk)
    exact .inr ⟨rfl, by simp; omega⟩
  | round => exact .inr ⟨rfl, by simp; omega⟩
  | inside => exact .inr ⟨rfl, by simp; omega⟩
  | template => exact .inl (Nat.lt_succ_self _)
  | content => exact .inl (Nat.lt_succ_self _)

/-- What holds of a visit if it holds of all that ways from it lead to holds of every visit. -/
theorem Visit.induction (r : Registry σ) (phase : Phase) {P : Visit σ → Prop}
    (step : ∀ v, (∀ w u, Part r phase v w u → P u) → P v) (v : Visit σ) : P v :=
  step v fun _ u _ => Visit.induction r phase step u
termination_by (v.depth, sizeOf v.element)
decreasing_by
  rename_i h
  rcases h.smaller with h | ⟨h1, h2⟩
  · exact .left _ _ h
  · rw [h1]
    exact .right _ h2

namespace Visit

@[simp] theorem at?_nil (v : Visit σ) : v.at? r phase [] = some v := rfl

theorem at?_cons {v x : Visit σ} {w : Way} {π : Path} :
    v.at? r phase (w :: π) = some x ↔ ∃ u, Part r phase v w u ∧ u.at? r phase π = some x := by
  simp only [at?, Option.bind_eq_some_iff, part?_eq_some]

/-- The indices on a path come after those of the element id at its start. -/
theorem at?_elementId {v x : Visit σ} {π : Path} (h : v.at? r phase π = some x) :
    x.scene.context.elementId.indices = v.scene.context.elementId.indices ++ π.indices := by
  induction π generalizing v with
  | nil =>
    cases h
    simp [Path.indices]
  | cons w π ih =>
    obtain ⟨u, hu, hx⟩ := at?_cons.mp h
    rw [ih hx, hu.below.elementId, List.append_assoc]
    cases hw : w.index? <;> simp [Path.indices, hw]

theorem at?_sender {v x : Visit σ} {π : Path} (h : v.at? r phase π = some x) :
    x.scene.context.sender = v.scene.context.sender := by
  induction π generalizing v with
  | nil =>
    cases h
    rfl
  | cons w π ih =>
    obtain ⟨u, hu, hx⟩ := at?_cons.mp h
    rw [ih hx, hu.below.sender]

theorem at?_request {v x : Visit σ} {π : Path} (h : v.at? r phase π = some x) :
    x.scene.context.request = v.scene.context.request := by
  induction π generalizing v with
  | nil =>
    cases h
    rfl
  | cons w π ih =>
    obtain ⟨u, hu, hx⟩ := at?_cons.mp h
    rw [ih hx, hu.below.request]

/-- Who takes itself to be in a form is in one. -/
theorem at?_inForm {v x : Visit σ} {π : Path} (h : v.at? r phase π = some x)
    (hx : x.scene.context.inForm = true) :
    v.scene.context.inForm = true ∨
      ∃ ρ τ f, π = ρ ++ .inside :: τ ∧ v.at? r phase ρ = some f ∧ f.element.isForm = true := by
  induction π generalizing v with
  | nil =>
    cases h
    exact .inl hx
  | cons w π ih =>
    obtain ⟨u, hu, hx'⟩ := at?_cons.mp h
    rcases ih hx' with hin | ⟨ρ, τ, f, rfl, hf, hform⟩
    · rcases hu.below.inForm hin with hv | ⟨rfl, hform⟩
      · exact .inl hv
      · exact .inr ⟨[], π, v, rfl, rfl, hform⟩
    · exact .inr ⟨w :: ρ, τ, f, rfl, at?_cons.mpr ⟨u, hu, hf⟩, hform⟩

end Visit

/-- What a traversal does not leave out has all its ways on the path to the sender. -/
theorem Part.visits {v u : Visit σ} {w : Way} (h : Part r phase v w u) (hv : phase.visits v.scene = true) :
    phase.visits u.scene = true := by
  have hb := h.below
  have hkeep : w.index? = none → phase.visits u.scene = true := by
    intro hw
    rw [phase.visits_congr hb.sender (by simpa [hw] using hb.elementId)]
    exact hv
  cases h with
  | child _ _ hu => exact hu
  | round _ _ _ _ hu => exact hu
  | inside => exact hkeep rfl
  | template => exact hkeep rfl
  | content => exact hkeep rfl

theorem Visit.at?_visits {v x : Visit σ} {π : Path} (h : v.at? r phase π = some x)
    (hv : phase.visits v.scene = true) : phase.visits x.scene = true := by
  induction π generalizing v with
  | nil =>
    cases h
    exact hv
  | cons w π ih =>
    obtain ⟨u, hu, hx⟩ := at?_cons.mp h
    exact ih hx (hu.visits hv)

/-! ## What is done at a visit -/

/-- What is done at the end of a way is done by the visit at its start. -/
theorem Part.run_extends {v u : Visit σ} {w : Way} (h : Part r phase v w u) :
    Extends (u.run r phase).2 (v.run r phase).2 := by
  have k : Kept r (@Extends σ) := extends_kept r
  cases h with
  | @child depth n s t name children e hn hs hv =>
    simp only [Visit.run, Element.visit, Element.visitWith, Pass.on_below]
    rw [split_getElem? hn, visitAll_append, hs]
    dsimp only
    rw [Pass.on_visitAll_cons, Pass.on_part, if_pos hv]
    rcases (e.visitWith r (Element.visit r phase depth) phase).on t with ⟨_ | _ | o, x⟩
    · exact List.prefix_rfl
    · have hrest := prefix_log.along (k.visitAll (k.visit phase depth) phase (children.drop (n + 1))
        (.refl (s := x.mapContext Context.next)))
      exact hrest
    · exact List.prefix_rfl
  | @round depth i s t u list item index items x e hl hi hr hset hv =>
    simp only [Visit.run, Element.visit, Element.visitWith, Control.visit, Element.visitContent,
      Control.visitRepetition, Pass.on_bind, hl, Pass.on_below]
    rw [split_getElem? hi, rounds_append, hr]
    dsimp only
    rw [Pass.on_rounds_cons, show 0 + (items.take i).length = i from ?_, hset]
    · dsimp only
      rw [Pass.on_part, if_pos hv]
      have hbody := k.visitWith (k.visit phase depth) phase e
      rcases (e.visitWith r (Element.visit r phase depth) phase).on u with ⟨_ | _ | o, y⟩
      · exact List.prefix_rfl
      · have hrest := prefix_log.along (Pass.Within.rounds k item index (.part k.toPlain hbody phase)
          (items.drop (i + 1)) (i + 1) (.refl (s := y.mapContext Context.next)))
        exact hrest
      · exact List.prefix_rfl
    · obtain ⟨hlt, -⟩ := List.getElem?_eq_some_iff.mp hi
      simp; omega
  | @inside depth s t c e hs =>
    have hbody := k.visitWith (k.visit phase depth) phase e
    simp only [Visit.run, Element.visit, Element.visitWith, Element.visitContent]
    cases approached hs with
    | link ho =>
      simp only [Control.visit, Control.visitHyperlink, Walk.ofPass, Pass.on_bind, ho, Option.getD_some]
      rcases (e.visitWith r (Element.visit r .render depth) .render).on t with ⟨_ | o, x⟩
      · exact List.prefix_rfl
      · exact List.prefix_rfl
    | @shownForm _ u _ ho =>
      simp only [Control.visit, Control.visitForm, Walk.ofPass, Pass.on_bind, ho, Option.getD_some, Pass.on_inForm]
      rcases (e.visitWith r (Element.visit r .render depth) .render).on
        (u.mapContext (·.withInForm true)) with ⟨_ | o, x⟩
      · exact List.prefix_rfl
      · exact List.prefix_rfl
    | @form _ _ action hne =>
      cases phase with
      | render => exact absurd rfl hne
      | take =>
        simp only [Control.visit, Control.visitForm, Pass.on_inForm, Option.getD_some]
        exact List.prefix_rfl
      | invoke =>
        simp only [Control.visit, Pass.on_visitForm_invoke, Option.getD_some]
        rcases (e.visitWith r (Element.visit r .invoke depth) .invoke).on
          (s.mapContext (·.withInForm true)) with ⟨_ | _ | o, x⟩
        · exact List.prefix_rfl
        · exact Pass.Within.submitForm k.toInPlace action x
        · exact List.prefix_rfl
    | conditional ho =>
      simp only [Control.visit, Control.visitConditional, Pass.on_bind, ho, Option.getD_some]
      exact List.prefix_rfl
    | @shownContainer _ _ _ _ name ho =>
      simp only [Control.visit, Control.visitUpdateContainer, Pass.on_bind, ho, Option.getD_some, Pass.on_ensuring]
      exact List.prefix_rfl
    | container hne =>
      cases phase with
      | render => exact absurd rfl hne
      | take => exact List.prefix_rfl
      | invoke => exact List.prefix_rfl
  | @template depth s t tag name bindings content e hs =>
    show Extends ((e.visit r phase (depth + 1)).on t).2
      ((Pass.enter r name bindings content (Element.visit r phase (depth + 1))).on s).2
    rw [Pass.on_enter, hs]
    dsimp only
    generalize (e.visit r phase (depth + 1)).on t = o
    have hd := prefix_log.depart bindings o.2
    rcases hdo : (Pass.depart bindings).on o.2 with ⟨_ | pulled, y⟩ <;> rw [hdo] at hd <;> exact hd
  | @content depth s c f rest e hf hc =>
    simp only [Visit.run]
    simp only [Element.visit, Element.visitWith, Control.visit, Pass.on_inParent, hf, hc]
    exact List.prefix_rfl

/-- What was done before a visit was done after the one around it began. -/
theorem Part.extends {v u : Visit σ} {w : Way} (h : Part r phase v w u) :
    Extends v.scene u.scene := by
  have k : Kept r (@Extends σ) := extends_kept r
  cases h with
  | @child depth n s t name children e hn hs hv =>
    have hpassed := prefix_log.along (k.visitAll (k.visit phase depth) phase (children.take n)
      (.refl (s := s.mapContext Context.down)))
    rw [hs] at hpassed
    exact hpassed
  | @round depth i s t u list item index items x e hl hi hr hset hv =>
    have hbody := k.visitWith (k.visit phase depth) phase e
    have hpassed := prefix_log.along (Pass.Within.rounds k item index (.part k.toPlain hbody phase) (items.take i) 0
      (.refl (s := s.mapContext Context.down)))
    rw [hr] at hpassed
    have hround := Pass.Within.setRound k.toPlain item index i x t
    rw [hset] at hround
    exact hpassed.trans hround
  | @inside depth s t c e hs =>
    cases approached hs with
    | @link _ _ target ho =>
      have hlink := Pass.Within.openLink k.toPlain (r := r) target s
      rw [ho] at hlink
      exact hlink
    | shownForm ho =>
      have hform := Pass.Within.openForm k.toPlain s
      rw [ho] at hform
      exact hform
    | form => exact List.prefix_rfl
    | conditional => exact List.prefix_rfl
    | @shownContainer _ _ id elementName name ho =>
      rcases Pass.on_openContainer s r.helpers id elementName with ⟨_, ho'⟩ | ⟨_, _, _, ho'⟩ <;> rw [ho'] at ho <;>
        cases ho
      exact List.prefix_rfl
    | container => exact List.prefix_rfl
  | @template depth s t tag name bindings content e hs =>
    have harrive := prefix_log.arrive r name bindings content s
    rw [hs] at harrive
    exact harrive
  | content => exact List.prefix_rfl

theorem Visit.at?_extends {v x : Visit σ} {π : Path} (h : v.at? r phase π = some x) :
    Extends v.scene x.scene := by
  induction π generalizing v with
  | nil =>
    cases h
    exact List.prefix_rfl
  | cons w π ih =>
    obtain ⟨u, hu, h⟩ := at?_cons.mp h
    exact hu.extends.trans (ih h)

theorem Visit.at?_run_extends {v x : Visit σ} {π : Path} (h : v.at? r phase π = some x) :
    Extends (x.run r phase).2 (v.run r phase).2 := by
  induction π generalizing v with
  | nil =>
    cases h
    exact List.prefix_rfl
  | cons w π ih =>
    obtain ⟨u, hu, hx⟩ := at?_cons.mp h
    exact (ih hx).trans hu.run_extends

/-! ## From the page on -/

theorem walkPage_of_pageVisit {s : Scene σ} {v : Visit σ} (h : pageVisit? r s = some v) :
    (Pass.walkPage r phase).on s = v.run r phase := by
  obtain ⟨d, hd, hte, hn, hscene⟩ := pageVisit?_eq_some.mp h
  rw [Pass.walkPage, Pass.on_bind, Pass.on_pageTemplate, hd]
  dsimp only
  rw [hte, hn, Visit.run, hscene]

/-- A traversal that does not come to the first visit has got the template at most. -/
theorem walkPage_of_no_pageVisit (phase : Phase) {s : Scene σ} (h : pageVisit? r s = none) :
    ∃ e c ts, (c = s.context ∨ c = s.context.atRoot) ∧
      (Pass.walkPage r phase).on s = (.error e, { s with context := c, templates := ts }) := by
  unfold pageVisit? at h
  rw [Pass.walkPage, Pass.on_bind]
  rw [Pass.on_pageTemplate] at h ⊢
  rcases hd : r.resolveComponent s.page.name with x | d
  · exact ⟨_, s.context, s.templates, .inl rfl, rfl⟩
  rcases hte : (Templates.get r d s.templates).1 with x | e
  · exact ⟨_, s.context, _, .inl rfl, by simp only [hte]; rfl⟩
  rcases hn : r.maxDepth with _ | depth
  · exact ⟨.tooDeep, s.context.atRoot, _, .inr rfl, by simp only [hte]; rfl⟩
  · simp [hd, hte, hn] at h

/-- A traversal of a page is what it does at the first visit, or fails before it gets there. -/
theorem walkPage_cases (r : Registry σ) (phase : Phase) (s : Scene σ) :
    ((∃ e, ((Pass.walkPage r phase).on s).1 = .error e) ∧
      ((Pass.walkPage r phase).on s).2.events = s.events) ∨
    ∃ v, pageVisit? r s = some v ∧ (Pass.walkPage r phase).on s = v.run r phase := by
  rw [Pass.walkPage, Pass.on_bind, Pass.on_pageTemplate]
  rcases hd : r.resolveComponent s.page.name with x | d
  · exact .inl ⟨⟨_, rfl⟩, rfl⟩
  dsimp only
  rcases hte : (Templates.get r d s.templates).1 with x | e
  · exact .inl ⟨⟨_, rfl⟩, rfl⟩
  dsimp only
  rcases hn : r.maxDepth with _ | depth
  · exact .inl ⟨⟨.tooDeep, rfl⟩, rfl⟩
  · exact .inr ⟨⟨depth, e, (s.compiled r d).mapContext Context.atRoot⟩,
      pageVisit?_eq_some.mpr ⟨d, hd, hte, hn, rfl⟩, rfl⟩

end Parts

/-! ## Pages to follow paths on -/

namespace Scripted

/-- A page that is nothing but a template. -/
def page (template : String) : Definition Scripted := ⟨"Page", template, "", { name := "Page", state := [] }⟩

def registry (template : String) : Registry Scripted :=
  { types := Assoc.put "Page" (.component (page template)) (@Registry.builtin Scripted).types }

def context : Context :=
  { request := { method := .get, uri := "/", path := "/", segments := [] }, sessionId := "1", contextId := some "3" }

end Scripted

end PageServer
