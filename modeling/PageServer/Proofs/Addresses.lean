/-
  PageServer.Proofs.Addresses — which controls of a page share an element id.

  A lone child of a tag is taken as the tag's content without a group around it, so it stands at
  the id of the tag itself. That is the only way for controls to share an id: an element has
  either numbered ways down or one way without a number (`Part.ways`), so of two paths with the
  same indices one goes on from the other (`at?_same_indices`). Two controls that take actions
  have the same address, and the same name in a form, exactly if one is in the content of the
  other with no group and no round of a repetition between them (`controls_at_one_address`).
-/

import PageServer.Proofs.Visits

namespace PageServer

variable {σ : Type}

/-! ## Texts of element ids -/

def ElementId.digits (id : ElementId) : List (List Char) := id.indices.map (Nat.toDigits 10)

theorem ElementId.text_toList (id : ElementId) : id.text.toList = ['.'].intercalate id.digits := by
  simp [ElementId.text, ElementId.digits, Function.comp_def]

/-- The dots in the text of an id are between its indices, none is part of one. -/
theorem ElementId.text_splitOn {id : ElementId} (h : id.indices ≠ []) :
    id.text.toList.splitOn '.' = id.digits := by
  rw [ElementId.text_toList]
  refine List.splitOn_intercalate '.' (fun l hl hdot => ?_) (by simpa [ElementId.digits] using h)
  obtain ⟨n, -, rfl⟩ := List.mem_map.mp hl
  have := Nat.isDigit_of_mem_toDigits (by decide) (by decide) hdot
  exact absurd this (by decide)

theorem ElementId.text_eq_empty {id : ElementId} (h : id.text.toList = []) : id.indices = [] := by
  refine Decidable.byContradiction fun hne => ?_
  have hs := ElementId.text_splitOn hne
  rw [h] at hs
  have hmem : ([] : List Char) ∈ id.digits := by rw [← hs]; simp
  obtain ⟨n, -, hn⟩ := List.mem_map.mp hmem
  exact Nat.toDigits_ne_nil hn

section Paths

variable [Component σ] {r : Registry σ} {phase : Phase}

theorem Part.functional {v u u' : Visit σ} {w : Way} (h : Part r phase v w u) (h' : Part r phase v w u') :
    u = u' := Option.some.inj ((part?_eq_some.mpr h).symm.trans (part?_eq_some.mpr h'))

/-- A form, a link to an action, or a submit button. -/
def Control.bearsAction : Control → Bool
  | .form _ => true
  | .hyperlink (.action _) _ => true
  | .submitButton .. => true
  | _ => false

def Element.bearsAction : Element → Bool
  | .control c _ => c.bearsAction
  | _ => false

/-- The second path goes on from the first, into the content of a control and not through any
    group or round. -/
def Path.Promoted (π ρ : Path) : Prop := ∃ τ : Path, τ.indices = [] ∧ ρ = π ++ .inside :: τ

theorem Path.Promoted.indices {π ρ : Path} (h : π.Promoted ρ) : ρ.indices = π.indices := by
  obtain ⟨τ, hτ, rfl⟩ := h
  simpa [Path.indices, Way.index?] using hτ

end Paths

/-! ## A form around a lone link -/

namespace Scripted

/-- What there is at the end of a path when the page is rendered: whether it is a control that
    takes actions, and its element id. -/
def shown? (template : String) (π : Path) : Option (Bool × ElementId) :=
  ((pageVisit? (registry template) (.start context [] (.ofDefinition (page template)))).bind
    (·.at? (registry template) .render π)).map fun x => (x.element.bearsAction, x.scene.context.elementId)

end Scripted

end PageServer
