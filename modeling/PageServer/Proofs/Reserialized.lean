/-
  PageServer.Proofs.Reserialized — a file that is read, written out and read again.

  Whatever file is read, its declarations are in the order of their names, no key is bound twice in
  any of them, and names are what may stand in a header (`proper_of_parse`). So with plain names and
  keys they are read again from what they are written as, all of them the same if and only if their
  numbers are finite (`parse_reserialized`): a number that is not finite comes back as a text.

  A key may be given as a literal, and is written as it is. So a key that is not plain is read once
  and not again (`literal_key_is_not_read_again`).
-/

import PageServer.Proofs.Written

namespace PageServer

open Lexeme

namespace Declarations

open Binding

variable {d : Declaration} {ds : Declarations}

/-! ## What every file provides -/

theorem of_insert? {key : String} {b : Binding} {bs bs' : Bindings} (h : bs.insert? key b = some bs') :
    key ∉ bs.names ∧ bs' = bs ++ [(key, b)] := by
  rw [Bindings.insert?] at h
  split at h
  · cases h
  · rename_i hnew
    cases h
    refine ⟨fun hmem => hnew ?_, rfl⟩
    obtain ⟨kb, hkb, rfl⟩ := List.mem_map.mp hmem
    simp only [Bindings.contains, Bindings.get?, Option.isSome_map, List.find?_isSome]
    exact ⟨kb, hkb, beq_self_eq_true _⟩

/-- A body binds no key twice, to what can be read. -/
theorem readBody_spec {t : Literals} {tag : String} {body : List Char} {bs : Bindings}
    (h : readBody t tag body = .ok bs) : bs.names.Nodup ∧ ∀ kb ∈ bs, Read kb.2 := by
  refine of_foldlM (P := fun bs : Bindings => bs.names.Nodup ∧ ∀ kb ∈ bs, Read kb.2) h ?_
    ⟨List.nodup_nil, by simp⟩
  rintro line - acc acc' hread ⟨hnodup, hall⟩
  have hsome := toOption_readBinding t tag acc line
  rw [hread] at hsome
  obtain ⟨p, -, hp⟩ := Option.bind_eq_some_iff.mp hsome.symm
  split at hp
  · cases hp
  obtain ⟨b, hb, hinsert⟩ := Option.bind_eq_some_iff.mp hp
  obtain ⟨hnew, rfl⟩ := of_insert? hinsert
  have hb' : Binding.ofRaw t (Text.trim p.2) = .ok b := by
    rcases hraw : Binding.ofRaw t (Text.trim p.2) with e | b' <;> rw [hraw] at hb <;> cases hb
    rfl
  refine ⟨?_, fun kb hkb => ?_⟩
  · rw [Bindings.names, List.map_append]
    refine List.nodup_append.mpr ⟨hnodup, by simp, fun key hkey key' hkey' heq => hnew ?_⟩
    rw [heq, List.mem_singleton.mp hkey'] at hkey
    exact hkey
  · rcases List.mem_append.mp hkb with hkb | hkb
    · exact hall kb hkb
    · cases List.mem_singleton.mp hkb
      exact read_of_ofRaw hb'

theorem infix_trim (s : List Char) : Text.trim s <:+: s :=
  (List.rdropWhile_prefix Text.isBlank _).isInfix.trans (List.dropWhile_suffix _).isInfix

theorem infix_trimSemicolons (s : List Char) : trimSemicolons s <:+: s :=
  (infix_trim _).trans ((List.dropWhile_suffix _).isInfix.trans (infix_trim s))

/-- Headers lie in the file, before an opening brace. -/
theorem within_blocks {s : List Char} {bs : List (List Char × List Char)} (h : blocks s = .ok bs) :
    ∀ b ∈ bs, b.1 <:+: s ∧ '\x7b' ∉ b.1 := by
  induction hn : s.length using Nat.strong_induction_on generalizing s bs with
  | _ n ih =>
    subst hn
    rcases hcut : Text.cut? '\x7b' s with _ | ⟨header, after⟩
    · rw [blocks_end hcut] at h
      split at h
      · cases h
        simp
      · cases h
    rcases hend : Text.cut? '\x7d' after with _ | ⟨body, rest⟩
    · rw [blocks_open hcut hend] at h
      cases h
    rw [blocks_cons hcut hend] at h
    obtain ⟨bs', hbs', rfl⟩ := eq_of_map h
    have hs := Text.cut?_eq hcut
    have hafter := Text.cut?_eq hend
    intro b hb
    rcases List.mem_cons.mp hb with rfl | hb
    · refine ⟨(infix_trimSemicolons header).trans ⟨[], '\x7b' :: after, by rw [hs]; rfl⟩, fun hmem => ?_⟩
      exact Text.not_mem_of_cut? hcut ((infix_trimSemicolons header).subset hmem)
    · have hlt : rest.length < s.length := (Text.cut?_length hend).trans (Text.cut?_length hcut)
      obtain ⟨hpart, hbrace⟩ := ih _ hlt hbs' rfl b hb
      refine ⟨hpart.trans ⟨header ++ '\x7b' :: body ++ ['\x7d'], [], ?_⟩, hbrace⟩
      rw [hs, hafter]
      simp

theorem HeaderPart.within {s w : List Char} (h : HeaderPart s) (hw : w <:+: s) : HeaderPart w where
  brace := fun hmem => h.brace (hw.subset hmem)
  quote := fun hmem => h.quote (hw.subset hmem)
  marks := fun m hm hpart => h.marks m hm (hpart.trans hw)

theorem HeaderPart.word {w : List Char} (h : HeaderPart w) (hne : String.ofList (Text.trim w) ≠ "") :
    HeaderWord (String.ofList (Text.trim w)).toList := by
  rw [String.toList_ofList]
  exact { h.within (infix_trim w) with tight := .of_strip fun hnil => hne (congrArg String.ofList hnil) }

/-- What is read off a file: in the order of the names, and each declaration proper. -/
structure AllProper (ds : Declarations) : Prop where
  sorted : Assoc.Sorted ds
  named : ∀ e ∈ ds, e.1 = e.2.name
  proper : ∀ e ∈ ds, Proper e.2

theorem AllProper.put {acc : Declarations} (h : AllProper acc) (hd : Proper d) :
    AllProper (Assoc.put d.name d acc) where
  sorted := h.sorted.put _ _
  named := by
    intro e he
    rcases Assoc.mem_put he with rfl | he
    · rfl
    · exact h.named e he
  proper := by
    intro e he
    rcases Assoc.mem_put he with rfl | he
    · exact hd
    · exact h.proper e he

/-- A block adds a proper declaration. -/
theorem readBlock_proper {t : Literals} {header body : List Char} {acc acc' : Declarations}
    (hheader : HeaderPart header) (h : readBlock t acc (header, body) = .ok acc') (hacc : AllProper acc) :
    AllProper acc' := by
  by_cases hnamed : ∃ name typeName, Text.cut? ':' header = some (name, typeName) ∧
      String.ofList (Text.trim name) ≠ "" ∧ String.ofList (Text.trim typeName) ≠ ""
  · obtain ⟨name, typeName, hcut, hname, htype⟩ := hnamed
    rw [readBlock_named hcut hname htype] at h
    split at h
    · cases h
    obtain ⟨bindings, hbindings, rfl⟩ := eq_of_map h
    obtain ⟨hkeys, hread⟩ := readBody_spec hbindings
    have hparts := Text.cut?_eq hcut
    have hcolon : ':' ∉ (String.ofList (Text.trim name)).toList := by
      rw [String.toList_ofList]
      exact fun hmem => Text.not_mem_of_cut? hcut ((infix_trim name).subset hmem)
    refine hacc.put (d := ⟨_, _, bindings⟩) ⟨?_, hcolon, ?_, hkeys, hread⟩
    · exact (hheader.within ⟨[], ':' :: typeName, hparts.symm⟩).word hname
    · exact (hheader.within ⟨name ++ [':'], [], by rw [hparts]; simp⟩).word htype
  · obtain ⟨e, he⟩ : ∃ e, readBlock t acc (header, body) = .error e :=
      readBlock_unnamed fun name typeName hcut => by
        by_contra hnot
        exact hnamed ⟨name, typeName, hcut, not_or.mp hnot⟩
    rw [he] at h
    cases h

/-- Every file is read as proper declarations. -/
theorem proper_of_parse {file : String} (h : parse file = .ok ds) : AllProper ds := by
  rw [parse_eq] at h
  rcases hlex : lex .outside file.toList with e | ls <;> rw [hlex] at h
  · cases h
  obtain ⟨hquote, hmarks⟩ := aside_clean (lex_clean hlex) 0
  change (blocks (aside 0 ls) >>= _) = _ at h
  rcases hblocks : blocks (aside 0 ls) with e | bs <;> rw [hblocks] at h
  · cases h
  refine of_foldlM h (fun block hblock acc acc' hread hacc => ?_) ⟨List.Pairwise.nil, by simp, by simp⟩
  obtain ⟨hpart, hbrace⟩ := within_blocks hblocks _ hblock
  have hheader : HeaderPart block.1 :=
    ⟨hbrace, fun hmem => hquote (hpart.subset hmem), fun m hm h => hmarks m hm (h.trans hpart)⟩
  exact readBlock_proper hheader hread hacc

/-! ## Read again -/

theorem settledAll_eq_self_iff : settledAll ds = ds ↔ ∀ e ∈ ds, ∀ kb ∈ e.2.bindings, kb.2.isFinite = true := by
  have hmap : ∀ {α : Type} {f : α → α} {as : List α}, as.map f = as ↔ ∀ a ∈ as, f a = a := by
    intro α f as
    simpa using List.map_inj_left (l := as) (f := f) (g := id)
  rw [settledAll, hmap]
  refine forall₂_congr fun e _ => ?_
  obtain ⟨key, name, typeName, bindings⟩ := e
  simp only [Declarations.settled, Prod.mk.injEq, true_and, Declaration.mk.injEq, hmap]
  refine forall₂_congr fun kb _ => ?_
  rw [← settled_eq_self_iff]
  exact Prod.ext_iff.trans (and_iff_right rfl)

/-- Written out, one per line, the declarations of a file are read again. Numbers that are not finite come
    back as texts. -/
theorem parse_reserialized {file : String} (h : parse file = .ok ds) (hplain : ∀ e ∈ ds, Plain e.2)
    (hsize : (text ds).length ≤ Nat.pow 2 64) :
    parse (text ds) = .ok (settledAll ds) ∧
      (parse (text ds) = .ok ds ↔ ∀ e ∈ ds, ∀ kb ∈ e.2.bindings, kb.2.isFinite = true) := by
  have hall := proper_of_parse h
  have hparse := parse_written hall.sorted hall.named (fun e he => ⟨hall.proper e he, hplain e he⟩) hsize
  refine ⟨hparse, ?_⟩
  rw [hparse, ← settledAll_eq_self_iff]
  exact ⟨Except.ok.inj, congrArg _⟩

def greetings : String :=
  "A : String \x7b v = \"x\\ty; z\"; n = 3; f = 2.5; b = YES; p = user.name; \x7d // more
   B : Repetition \x7b \"list\" = ~default(items, concat(\"none\", -0.00001)); big = 99999999999999999999; \x7d"

theorem greetings_are_read_again :
    ∃ ds, parse greetings = .ok ds ∧ Assoc.keys ds = ["A", "B"] ∧ parse (text ds) = .ok ds := by
  -- The kernel is given the characters, as it takes long to find them in the bytes of a text.
  set_option maxRecDepth 4000 in
  have hchars : greetings.toList = _ := String.toList_ofList
  obtain ⟨ds, h, hds⟩ : ∃ ds, parse greetings = .ok ds ∧
      (Assoc.keys ds, decide (∀ e ∈ ds, Plain e.2),
        decide (((draftRows (ds.map fun e => draft e.2)).flatMap source).length ≤ Nat.pow 2 64),
        decide (∀ e ∈ ds, ∀ kb ∈ e.2.bindings, kb.2.isFinite = true)) = (["A", "B"], true, true, true) :=
    of_read (by rw [parse, hchars]; decide +kernel)
  simp only [Prod.mk.injEq, decide_eq_true_eq] at hds
  obtain ⟨hkeys, hplain, hsize, hfinite⟩ := hds
  rw [source_drafts (proper_of_parse h).proper, String.length_toList] at hsize
  exact ⟨ds, h, hkeys, (parse_reserialized h hplain hsize).2.mpr hfinite⟩

/-- A key that was given as a literal is written as it is. -/
theorem literal_key_is_not_read_again : ¬∀ file ds, parse file = .ok ds → parse (text ds) = .ok ds := by
  intro hall
  obtain ⟨ds, h, hagain⟩ : ∃ ds, parse "A : String \x7b \"a=b\" = 1; \x7d" = .ok ds ∧
      (parse (text ds)).toOption.isSome = false :=
    of_read (by decide +kernel)
  rw [hall _ ds h] at hagain
  cases hagain

end Declarations

end PageServer
