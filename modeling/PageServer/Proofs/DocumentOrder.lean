/-
  PageServer.Proofs.DocumentOrder — which of two visits comes first.

  The paths from a visit are ordered as a reader meets the elements in a document
  (`Path.Before`): an element before what is nested in it, and child before child, round before
  round. Any two visits are in order (`Visit.before_or`), and of the visits with a property there
  is a first one (`Visit.exists_first`).
-/

import Mathlib.Order.WellFounded
import PageServer.Proofs.Visits

namespace PageServer

variable {σ : Type}

inductive Way.Before : Way → Way → Prop
  | child {j k : Nat} : j < k → Before (.child j) (.child k)
  | round {i j : Nat} : i < j → Before (.round i) (.round j)

/-- An element comes before what is nested in it, and all of that before what follows it. -/
def Path.Before (π ρ : Path) : Prop := List.Lex Way.Before π ρ

theorem Way.before_wf : WellFounded Way.Before := by
  refine Subrelation.wf (fun {w w'} h => ?_) (measure fun w => w.index?.getD 0).wf
  cases h with
  | child h => exact h
  | round h => exact h

variable [Component σ] {r : Registry σ} {phase : Phase}

/-- Of two ways from a visit one comes before the other. -/
theorem Part.before_or {v u u' : Visit σ} {w w' : Way} (h : Part r phase v w u) (h' : Part r phase v w' u') :
    w = w' ∨ w.Before w' ∨ w'.Before w := by
  cases h with
  | @child _ k =>
    cases h' with
    | @child _ k' =>
      rcases Nat.lt_trichotomy k k' with hlt | rfl | hlt
      · exact .inr (.inl (.child hlt))
      · exact .inl rfl
      · exact .inr (.inr (.child hlt))
  | @round _ i =>
    cases h' with
    | @round _ i' =>
      rcases Nat.lt_trichotomy i i' with hlt | rfl | hlt
      · exact .inr (.inl (.round hlt))
      · exact .inl rfl
      · exact .inr (.inr (.round hlt))
    | inside h' => cases h'
  | inside h =>
    cases h' with
    | round => cases h
    | inside => exact .inl rfl
    | content => cases h
  | template =>
    cases h' with
    | template => exact .inl rfl
  | content =>
    cases h' with
    | inside h' => cases h'
    | content => exact .inl rfl

/-- Of two visits one comes before the other. -/
theorem Visit.before_or {v x y : Visit σ} {π ρ : Path} (hx : v.at? r phase π = some x)
    (hy : v.at? r phase ρ = some y) : π = ρ ∨ π.Before ρ ∨ ρ.Before π := by
  induction π generalizing v ρ with
  | nil =>
    cases ρ with
    | nil => exact .inl rfl
    | cons w ρ => exact .inr (.inl .nil)
  | cons w π ih =>
    cases ρ with
    | nil => exact .inr (.inr .nil)
    | cons w' ρ =>
      obtain ⟨u, hu, hx⟩ := at?_cons.mp hx
      obtain ⟨u', hu', hy⟩ := at?_cons.mp hy
      rcases hu.before_or hu' with rfl | hlt | hlt
      · obtain rfl : u = u' := Option.some.inj ((part?_eq_some.mpr hu).symm.trans (part?_eq_some.mpr hu'))
        rcases ih hx hy with rfl | hlt | hlt
        · exact .inl rfl
        · exact .inr (.inl (.cons hlt))
        · exact .inr (.inr (.cons hlt))
      · exact .inr (.inl (.rel hlt))
      · exact .inr (.inr (.rel hlt))

/-- Of the visits with a property there is a first one. -/
theorem Visit.exists_first (P : Visit σ → Prop) (v : Visit σ) (h : ∃ π x, v.at? r phase π = some x ∧ P x) :
    ∃ π x, v.at? r phase π = some x ∧ P x ∧ ∀ ρ y, ρ.Before π → v.at? r phase ρ = some y → ¬ P y := by
  induction v using Visit.induction r phase with
  | step v ih =>
  by_cases hv : P v
  · exact ⟨[], v, rfl, hv, fun ρ y hlt => nomatch hlt⟩
  -- The first way that leads to such a visit, and the first visit at the end of it.
  have hways : {w | ∃ u, Part r phase v w u ∧ ∃ π x, u.at? r phase π = some x ∧ P x}.Nonempty := by
    obtain ⟨π, x, hx, hP⟩ := h
    cases π with
    | nil =>
      cases hx
      exact absurd hP hv
    | cons w π =>
      obtain ⟨u, hu, hx⟩ := at?_cons.mp hx
      exact ⟨w, u, hu, π, x, hx, hP⟩
  obtain ⟨w, ⟨u, hu, hbelow⟩, hleast⟩ := Way.before_wf.has_min _ hways
  obtain ⟨π, x, hx, hP, hfirst⟩ := ih w u hu hbelow
  refine ⟨w :: π, x, at?_cons.mpr ⟨u, hu, hx⟩, hP, fun ρ y hlt hy hPy => ?_⟩
  cases hlt with
  | nil =>
    cases hy
    exact hv hPy
  | @rel w' ρ _ _ hlt =>
    obtain ⟨u', hu', hy⟩ := at?_cons.mp hy
    exact hleast w' ⟨u', hu', ρ, y, hy, hPy⟩ hlt
  | @cons _ ρ _ hlt =>
    obtain ⟨u', hu', hy⟩ := at?_cons.mp hy
    obtain rfl : u = u' := Option.some.inj ((part?_eq_some.mpr hu).symm.trans (part?_eq_some.mpr hu'))
    exact hfirst ρ y hlt hy hPy

end PageServer
