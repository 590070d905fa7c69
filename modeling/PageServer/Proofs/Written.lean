/-
  PageServer.Proofs.Written — declarations that are written one per line are read as they were.

  A declaration is written as a draft: each right hand side is the row of the text that its binding has
  in a declaration (`valueRow`). A literal, a word and a call are read back from it, numbers that are not
  finite as texts (`bindingOf_valueRow`), so a file of declarations is read as the declarations
  (`parse_written`).

  Two things are asked of them. What every file that is read provides (`Proper`): the names begin and
  end with what is not blank, and hold no brace, no quote and no comment; no key is bound twice. And
  what a file may leave out (`Plain`), since names and keys are written as they are, with no literal
  around them: no tag name begins with a semicolon, a key is not empty and has no equals sign and no
  blank ends, and neither keys nor helper names hold a quote, a semicolon, a brace, or what begins a
  comment or a placeholder.
-/

import PageServer.Proofs.Drafts

namespace PageServer

open Lexeme

namespace Binding

open Declarations

variable {b : Binding}

/-! ## Right hand sides -/

mutual

theorem helperNames_settled (b : Binding) : b.settled.helperNames = b.helperNames := by
  match b with
  | constant (.float x) =>
    rw [settled]
    split <;> rfl
  | call helper arguments => rw [settled, helperNames, helperNames, helperNames_settledArguments arguments]
  | constant .null | constant (.bool _) | constant (.int _) => rfl
  | constant (.string _) | constant (.list _) | constant (.map _) | keyPath _ => rfl

theorem helperNames_settledArguments (bs : List Binding) :
    argumentHelperNames (settledArguments bs) = argumentHelperNames bs := by
  match bs with
  | [] => rfl
  | b :: rest =>
    rw [settledArguments, argumentHelperNames, argumentHelperNames, helperNames_settled b,
      helperNames_settledArguments rest]

end

/-- A term is no comment and no end of a binding, if the helpers have plain names. -/
theorem free_row (h : Read b) (hnames : ∀ name ∈ b.helperNames, Bare name.toList) : Free signs marks (row b) := by
  refine (writes_row h).free (List.forall_mem_singleton.mpr ?_)
  rwa [helperNames_settled]

/-- What a right hand side is written with: calls are introduced by a tilde. -/
def valueRow (b : Binding) : List Lexeme :=
  match b with
  | call .. => .char '~' :: row b
  | _ => row b

theorem valueRow_eq (hcall : ∀ helper arguments, b ≠ .call helper arguments) :
    valueRow b = row b ∧ b.text = b.term := by
  cases b with
  | constant v => exact ⟨rfl, rfl⟩
  | keyPath p => exact ⟨rfl, rfl⟩
  | call helper arguments => exact absurd rfl (hcall helper arguments)

theorem source_valueRow (h : Read b) : (valueRow b).flatMap source = b.text.toList := by
  by_cases hcall : ∃ helper arguments, b = .call helper arguments
  · obtain ⟨helper, arguments, rfl⟩ := hcall
    change source (.char '~') ++ (row (.call helper arguments)).flatMap source =
      ("~" ++ term (.call helper arguments)).toList
    rw [source_row h, String.toList_append]
    rfl
  · obtain ⟨hrow, htext⟩ := valueRow_eq fun helper arguments hb => hcall ⟨helper, arguments, hb⟩
    rw [hrow, htext, source_row h]

theorem free_valueRow (h : Free signs marks (row b)) : Free signs marks (valueRow b) := by
  by_cases hcall : ∃ helper arguments, b = .call helper arguments
  · obtain ⟨helper, arguments, rfl⟩ := hcall
    exact h.cons (by decide) (by decide)
  · rwa [(valueRow_eq fun helper arguments hb => hcall ⟨helper, arguments, hb⟩).1]

theorem tight_valueRow (h : Read b) : Tight Lexeme.isBlank (valueRow b) := by
  have htight := (writes_row h).tight
  by_cases hcall : ∃ helper arguments, b = .call helper arguments
  · obtain ⟨helper, arguments, rfl⟩ := hcall
    exact tight_tilde.append htight []
  · rwa [(valueRow_eq fun helper arguments hb => hcall ⟨helper, arguments, hb⟩).1]

/-- The right hand side of a binding is read back. -/
theorem bindingOf_valueRow (h : Read b) : Lexeme.bindingOf (valueRow b) = some (settled b) := by
  have htrim : Lexeme.trim (valueRow b) = valueRow b := (tight_valueRow h).strip_self
  induction h using Read.written with
  | @word b _ hb =>
    rw [(valueRow_eq hb.no_call).1, hb.row] at htrim ⊢
    have hhead : ∀ r, Lexeme.trim (chars b.term.toList) ≠ .char '~' :: r := by
      intro r heq
      have hmem : Lexeme.char '~' ∈ chars b.term.toList := by
        rw [← htrim, heq]
        exact List.mem_cons_self
      exact absurd (hb.word.chars '~' (char_mem_chars.mp hmem)) (by decide +kernel)
    rw [bindingOf_plain hhead, htrim, plainOf, whole?_chars, chars?_chars, hb.settled]
    change (ofWord b.term.toList).toOption = _
    rw [hb.word.reads]
    rfl
  | @literal b s _ hb =>
    rw [(valueRow_eq hb.no_call).1, hb.row] at htrim ⊢
    rw [bindingOf_plain (by simp [htrim]), htrim, hb.settled]
    change some (Binding.constant (unescaped (String.ofList (Text.escape s.toList)).toList)) = _
    rw [unescaped, String.toList_ofList, Text.unescape_escape, String.ofList_toList]
  | call hc hw ha ih =>
    have hread := Read.call hc hw ha
    rw [bindingOf_expression htrim, source_row hread, ofExpression_term hread]
    rfl

end Binding

namespace Declarations

open Binding

/-! ## Declarations as drafts -/

/-- What holds of every declaration that is read off a file. -/
structure Proper (d : Declaration) : Prop where
  name : HeaderWord d.name.toList
  colon : ':' ∉ d.name.toList
  typeName : HeaderWord d.typeName.toList
  keys : d.bindings.names.Nodup
  read : ∀ kb ∈ d.bindings, Read kb.2

/-- The names and keys of the declaration may be written as they are. -/
structure Plain (d : Declaration) : Prop where
  name : d.name.toList.head? ≠ some ';'
  keys : ∀ key ∈ d.bindings.names, PlainKey key
  helpers : ∀ kb ∈ d.bindings, ∀ name ∈ kb.2.helperNames, Bare name.toList

instance (d : Declaration) : Decidable (Plain d) :=
  decidable_of_iff (d.name.toList.head? ≠ some ';' ∧ (∀ key ∈ d.bindings.names, PlainKey key) ∧
      ∀ kb ∈ d.bindings, ∀ name ∈ kb.2.helperNames, Bare name.toList)
    ⟨fun h => ⟨h.1, h.2.1, h.2.2⟩, fun h => ⟨h.name, h.keys, h.helpers⟩⟩

variable {d : Declaration}

def line (kb : String × Binding) : Line := ⟨kb.1, valueRow kb.2, kb.2.settled⟩

def draft (d : Declaration) : Draft := ⟨d.name, d.typeName, d.bindings.map line⟩

theorem line_reads {kb : String × Binding} (hkey : PlainKey kb.1) (hread : Read kb.2)
    (hhelpers : ∀ name ∈ kb.2.helperNames, Bare name.toList) : (line kb).Reads where
  key := hkey
  free := free_valueRow (free_row hread hhelpers)
  tight := ⟨valueRow kb.2, [], by simp [line, chars], tight_valueRow hread, Text.gap_nil⟩
  binding := bindingOf_valueRow hread

theorem draft_reads (hd : Proper d) (hplain : Plain d) : (draft d).Reads where
  name := hd.name
  colon := hd.colon
  semicolon := hplain.name
  typeName := hd.typeName
  keys := by
    rw [draft, List.map_map]
    exact hd.keys
  lines := by
    intro l hl
    obtain ⟨kb, hkb, rfl⟩ := List.mem_map.mp hl
    exact line_reads (hplain.keys kb.1 (List.mem_map.mpr ⟨kb, hkb, rfl⟩)) (hd.read kb hkb) (hplain.helpers kb hkb)

/-- The declaration as it is read again. -/
def settled (d : Declaration) : Declaration :=
  ⟨d.name, d.typeName, d.bindings.map fun kb => (kb.1, kb.2.settled)⟩

theorem declaration_draft (d : Declaration) : (draft d).declaration = settled d := by
  rw [draft, Draft.declaration, List.map_map]
  rfl

theorem source_bodyRow {bs : Bindings} (h : ∀ kb ∈ bs, Read kb.2) :
    (bodyRow (bs.map line)).flatMap source = (String.join (bs.map Declaration.bindingText)).toList ++ [' '] := by
  induction bs with
  | nil => rfl
  | cons kb bs ih =>
    rw [List.map_cons, bodyRow_cons, List.flatMap_append, List.flatMap_cons, List.flatMap_cons, Line.row,
      List.flatMap_append, source_chars, List.flatMap_cons, List.flatMap_cons, List.flatMap_cons, line,
      source_valueRow (h kb List.mem_cons_self), ih fun kb hkb => h kb (List.mem_cons_of_mem _ hkb), List.map_cons,
      String.join_cons]
    simp [Declaration.bindingText]

theorem source_draft (hd : Proper d) : (draft d).row.flatMap source = d.text.toList := by
  rw [Draft.row, List.flatMap_append, source_chars, List.flatMap_cons, List.flatMap_cons, List.flatMap_append, draft,
    source_bodyRow hd.read]
  simp [Declaration.text, Draft.header]

/-! ## Files -/

variable {ds : Declarations}

/-- The declarations, one per line. -/
def text (ds : Declarations) : String := String.join (ds.map fun e => e.2.text ++ "\n")

theorem source_drafts (h : ∀ e ∈ ds, Proper e.2) :
    (draftRows (ds.map fun e => draft e.2)).flatMap source = (text ds).toList := by
  induction ds with
  | nil => rfl
  | cons e ds ih =>
    rw [List.map_cons, draftRows_cons, List.flatMap_append, List.flatMap_cons, source_draft (h e List.mem_cons_self),
      ih fun e he => h e (List.mem_cons_of_mem _ he)]
    simp [text]

/-- The declarations as they are read again. -/
def settledAll (ds : Declarations) : Declarations := ds.map fun e => (e.1, settled e.2)

/-- A file of proper declarations with plain names is read as the declarations. -/
theorem parse_written (hsorted : Assoc.Sorted ds) (hnames : ∀ e ∈ ds, e.1 = e.2.name)
    (h : ∀ e ∈ ds, Proper e.2 ∧ Plain e.2) (hsize : (text ds).length ≤ Nat.pow 2 64) :
    parse (text ds) = .ok (settledAll ds) := by
  have hreads : ∀ d ∈ ds.map fun e => draft e.2, d.Reads := by
    intro d hd
    obtain ⟨e, he, rfl⟩ := List.mem_map.mp hd
    exact draft_reads (h e he).1 (h e he).2
  have hascending : (ds.map fun e => draft e.2).Pairwise (·.name < ·.name) := by
    refine List.pairwise_map.mpr (hsorted.imp_of_mem fun {e e'} he he' hlt => ?_)
    rwa [hnames e he, hnames e' he'] at hlt
  rw [parse_drafts (source_drafts fun e he => (h e he).1) hascending hreads hsize, List.map_map, settledAll]
  refine congrArg _ (List.map_congr_left fun e he => ?_)
  rw [Function.comp_apply, declaration_draft, hnames e he]
  rfl

end Declarations

end PageServer
