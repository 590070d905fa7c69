/-
  PageServer.Proofs.AddressGrammar — which texts are addresses, and of what.

  An address is written as numbers with dots between them (`Spelled`): the context id, as it is, and
  at least one index below `2^32`. These texts and no others are read (`spelled_of_parse`,
  `Spelled.parse_eq`), and what is wrong with another text is found in the order of `fault`. Two
  numbers are the same if they have the same digits from the first one on that is no zero
  (`significant_eq_iff`), so zeros before an index are all that texts of one address can differ in.
-/

import Mathlib.Data.List.Induction
import PageServer.Proofs.AddressTexts

namespace PageServer

/-! ## Numbers -/

namespace Text

/-- At least one digit, and nothing else. -/
def IsNumber (s : List Char) : Prop := s ≠ [] ∧ ∀ c ∈ s, c.isDigit = true

/-- The number that the digits are, in base ten. -/
def numberOf (s : List Char) : Nat := Nat.ofDigitChars 10 s 0

/-- The digits from the first one on that is no zero. -/
def significant (s : List Char) : List Char := s.dropWhile (· == '0')

theorem IsNumber.not_mem_dot {s : List Char} (h : IsNumber s) : '.' ∉ s :=
  fun hmem => absurd (h.2 '.' hmem) (by decide)

theorem not_mem_of_cut?_eq_none {sep : Char} {s : List Char} (h : cut? sep s = none) : sep ∉ s := by
  unfold cut? at h
  split at h
  · rename_i hnil
    intro hmem
    have hkept : sep ∈ s.takeWhile (· != sep) := by
      rwa [← List.takeWhile_append_dropWhile (p := (· != sep)) (l := s), hnil, List.append_nil] at hmem
    have hne := List.all_eq_true.mp (List.all_takeWhile (p := (· != sep)) (l := s)) sep hkept
    simp at hne
  · cases h

theorem readDigits_eq_error {limit : Nat} {excess : NumberError} {s : List Char} {n : Nat}
    (h : ∀ c ∈ s, c.isDigit = true) (hn : n ≤ limit) (hlimit : limit < Nat.ofDigitChars 10 s n) :
    readDigits limit excess n s = .error excess := by
  induction s generalizing n with
  | nil => exact absurd hlimit (Nat.not_lt.mpr hn)
  | cons c rest ih =>
    rw [Nat.ofDigitChars_cons] at hlimit
    rw [readDigits, digitValue?_of_isDigit (h c List.mem_cons_self)]
    dsimp only
    rw [Nat.mul_comm n 10]
    split
    · rename_i hle
      exact ih (fun c' hc' => h c' (List.mem_cons_of_mem _ hc')) hle hlimit
    · rfl

theorem readNat_of_isNumber {limit : Nat} {s : List Char} (h : IsNumber s) :
    readNat limit s = readDigits limit .tooLarge 0 s := by
  obtain ⟨hne, hdigits⟩ := h
  unfold readNat
  split
  · exact absurd rfl hne
  · exact absurd (hdigits '+' List.mem_cons_self) (by decide)
  · exact absurd (hdigits '+' List.mem_cons_self) (by decide)
  · rfl

theorem numberOf_concat (s : List Char) (c : Char) :
    numberOf (s ++ [c]) = 10 * numberOf s + (c.toNat - '0'.toNat) := by
  rw [numberOf, Nat.ofDigitChars_append, Nat.ofDigitChars_cons, Nat.ofDigitChars_nil, ← numberOf]

theorem toDigits_of_isDigit {c : Char} (h : c.isDigit = true) :
    c.toNat - '0'.toNat < 10 ∧ Nat.toDigits 10 (c.toNat - '0'.toNat) = [c] := by
  obtain ⟨hlow, hhigh⟩ := Char.isDigit_iff_toNat.mp h
  have hlt : c.toNat - '0'.toNat < 10 := by
    have hends : '0'.toNat = 48 ∧ '9'.toNat = 57 := by decide
    omega
  refine ⟨hlt, ?_⟩
  rw [Nat.toDigits_of_lt_base hlt]
  have hchar : (c.toNat - '0'.toNat).digitChar.toNat = c.toNat := by
    have hback : (c.toNat - '0'.toNat).digitChar.toNat - 48 = c.toNat - '0'.toNat :=
      Nat.toNat_digitChar_sub_48_of_lt_ten hlt
    have hdigit : (c.toNat - '0'.toNat).digitChar.isDigit = true := by
      simpa [Nat.isDigit_digitChar] using hlt
    have hends : '0'.toNat = 48 := rfl
    have hlow' := (Char.isDigit_iff_toNat.mp hdigit).1
    omega
  rw [Char.toNat_inj.mp hchar]

/-- The significant digits of a number are those that it is written with; a zero has none. -/
theorem significant_eq {s : List Char} (h : ∀ c ∈ s, c.isDigit = true) :
    significant s = if numberOf s = 0 then [] else Nat.toDigits 10 (numberOf s) := by
  induction s using List.reverseRecOn with
  | nil => rfl
  | append_singleton s c ih =>
    have hs : significant s = if numberOf s = 0 then [] else Nat.toDigits 10 (numberOf s) :=
      ih fun c hc => h c (List.mem_append_left _ hc)
    obtain ⟨hlt, hc⟩ := toDigits_of_isDigit (h c (List.mem_append_right _ (List.mem_singleton_self c)))
    rw [significant, List.dropWhile_append, ← significant, hs, numberOf_concat]
    by_cases hzero : numberOf s = 0
    · simp only [hzero, if_true, List.isEmpty_nil, Nat.mul_zero, Nat.zero_add, hc]
      by_cases hc0 : c = '0'
      · subst hc0
        rfl
      · have hne : c.toNat - '0'.toNat ≠ 0 := by
          intro hn
          rw [hn] at hc
          exact hc0 (List.singleton_inj.mp hc.symm)
        rw [if_neg hne, List.dropWhile_cons_of_neg (by simpa using hc0)]
    · have hpos : 0 < numberOf s := Nat.pos_of_ne_zero hzero
      have hsum : 10 * numberOf s + (c.toNat - '0'.toNat) ≠ 0 := by omega
      have hdigits : (Nat.toDigits 10 (numberOf s)).isEmpty = false := List.isEmpty_eq_false_iff.mpr Nat.toDigits_ne_nil
      simp only [if_neg hzero, hdigits, if_neg hsum, Bool.false_eq_true, if_false]
      rw [← Nat.toDigits_append_toDigits (by decide) hpos hlt, hc]

theorem significant_eq_iff {s t : List Char} (hs : ∀ c ∈ s, c.isDigit = true) (ht : ∀ c ∈ t, c.isDigit = true) :
    significant s = significant t ↔ numberOf s = numberOf t := by
  rw [significant_eq hs, significant_eq ht]
  constructor
  · intro h
    split at h <;> split at h
    · rename_i hzero hzero'
      rw [hzero, hzero']
    · exact absurd h.symm Nat.toDigits_ne_nil
    · exact absurd h Nat.toDigits_ne_nil
    · rw [← Nat.ofDigitChars_ten_toDigits (n := numberOf s), h, Nat.ofDigitChars_ten_toDigits]
  · intro h
    rw [h]

end Text

/-! ## Element ids -/

namespace ElementId

open Text

theorem readIndex?_eq_some_iff {s : List Char} {n : Nat} :
    readIndex? s = some n ↔ IsNumber s ∧ numberOf s < Nat.pow 2 32 ∧ n = numberOf s := by
  unfold readIndex?
  split
  · rename_i h
    refine ⟨nofun, fun ⟨⟨hne, hdigits⟩, _⟩ => ?_⟩
    simp only [Bool.or_eq_true, List.isEmpty_iff, Bool.not_eq_true', List.all_eq_false] at h
    rcases h with hnil | ⟨c, hc, hd⟩
    · exact absurd hnil hne
    · exact absurd (hdigits c hc) hd
  · rename_i h
    simp only [Bool.or_eq_true, List.isEmpty_iff, Bool.not_eq_true', not_or, Bool.not_eq_false,
      List.all_eq_true] at h
    have hnumber : IsNumber s := h
    rw [readNat_of_isNumber hnumber]
    by_cases hlimit : numberOf s ≤ maxIndex
    · rw [readDigits_eq_ok hnumber.2 hlimit]
      have hlt : numberOf s < Nat.pow 2 32 := Nat.lt_of_le_of_lt hlimit (by decide)
      exact ⟨fun h => ⟨hnumber, hlt, (Option.some.inj h).symm⟩, fun ⟨_, _, hn⟩ => congrArg some hn.symm⟩
    · rw [readDigits_eq_error hnumber.2 (Nat.zero_le _) (Nat.lt_of_not_le hlimit)]
      refine ⟨nofun, fun ⟨_, hlt, _⟩ => absurd (Nat.le_of_lt_succ hlt) hlimit⟩

theorem mapM_readIndex?_eq_some_iff {ls : List (List Char)} {ns : List Nat} :
    ls.mapM readIndex? = some ns ↔ (∀ l ∈ ls, IsNumber l ∧ numberOf l < Nat.pow 2 32) ∧ ns = ls.map numberOf := by
  induction ls generalizing ns with
  | nil => simp [eq_comm]
  | cons l rest ih =>
    rw [List.mapM_cons]
    constructor
    · intro h
      obtain ⟨n, hn, h⟩ := Option.bind_eq_some_iff.mp h
      obtain ⟨ms, hms, h⟩ := Option.bind_eq_some_iff.mp h
      cases h
      obtain ⟨hl, hlt, rfl⟩ := readIndex?_eq_some_iff.mp hn
      obtain ⟨hrest, rfl⟩ := ih.mp hms
      exact ⟨List.forall_mem_cons.mpr ⟨⟨hl, hlt⟩, hrest⟩, rfl⟩
    · rintro ⟨h, rfl⟩
      obtain ⟨⟨hl, hlt⟩, hrest⟩ := List.forall_mem_cons.mp h
      rw [readIndex?_eq_some_iff.mpr ⟨hl, hlt, rfl⟩, ih.mpr ⟨hrest, rfl⟩]
      rfl

theorem parse?_eq_some_iff {s : List Char} (hs : s ≠ []) {id : ElementId} :
    parse? s = some id ↔
      (∀ l ∈ pieces '.' s, IsNumber l ∧ numberOf l < Nat.pow 2 32) ∧ id = ⟨(pieces '.' s).map numberOf⟩ := by
  rw [parse?, if_neg (by simpa using hs), Option.map_eq_some_iff]
  constructor
  · rintro ⟨ns, hns, rfl⟩
    obtain ⟨h, rfl⟩ := mapM_readIndex?_eq_some_iff.mp hns
    exact ⟨h, rfl⟩
  · rintro ⟨h, rfl⟩
    exact ⟨_, mapM_readIndex?_eq_some_iff.mpr ⟨h, rfl⟩, rfl⟩

end ElementId

/-! ## Addresses -/

namespace Address

open Text

/-- How an address is written: a number, and one or more numbers below `2^32`, with dots between them. -/
structure Spelled (part : String) (context : List Char) (indices : List (List Char)) : Prop where
  text : part.toList = ['.'].intercalate (context :: indices)
  context : IsNumber context
  ne_nil : indices ≠ []
  index : ∀ i ∈ indices, IsNumber i ∧ numberOf i < Nat.pow 2 32

/-- What is wrong with a text that is no address. -/
def fault (part : String) : AddressError :=
  let s := part.toList
  if s.all Char.isDigit then .missingPeriod part
  else if !(s.head?.all Char.isDigit && s.getLast?.all Char.isDigit) then .nonDigitBoundary part
  else if !s.all (fun c => c.isDigit || c == '.') then .invalidCharacter part
  else .emptyComponent part

/-- The text, cut at the dots, without the zeros before the indices. -/
def significantParts (part : String) : List (List Char) :=
  match pieces '.' part.toList with
  | [] => []
  | context :: indices => context :: indices.map significant

variable {part : String} {context : List Char} {indices : List (List Char)} {a : Address}

namespace Spelled

variable (h : Spelled part context indices)
include h

theorem isNumber {l : List Char} (hl : l ∈ context :: indices) : IsNumber l := by
  rcases List.mem_cons.mp hl with rfl | hl
  · exact h.context
  · exact (h.index l hl).1

theorem pieces_eq : pieces '.' part.toList = context :: indices := by
  rw [h.text]
  exact pieces_intercalate (fun _ hl => (h.isNumber hl).not_mem_dot) (List.cons_ne_nil _ _)

theorem parse_eq : parse part = .ok ⟨String.ofList context, ⟨indices.map numberOf⟩⟩ := by
  obtain ⟨i, rest, hindices⟩ := List.exists_cons_of_ne_nil h.ne_nil
  obtain ⟨first, digits, hcontext⟩ := List.exists_cons_of_ne_nil h.context.1
  obtain ⟨hall, last, hlast, hend⟩ := ElementId.dotted (List.cons_ne_nil context indices) fun _ hl => h.isNumber hl
  have hsplit : part.toList = context ++ '.' :: ['.'].intercalate indices := by
    rw [h.text, hindices, List.intercalate_cons_cons, List.append_assoc]
    rfl
  have hhead : part.toList.head? = some first := by
    rw [hsplit, hcontext]
    rfl
  have hfirst : first.isDigit = true := h.context.2 first (hcontext ▸ List.mem_cons_self)
  have hcut : cut? '.' part.toList = some (context, ['.'].intercalate indices) := by
    rw [hsplit]
    exact cut?_eq_some h.context.not_mem_dot _
  have hpieces : pieces '.' (['.'].intercalate indices) = indices :=
    pieces_intercalate (fun l hl => (h.index l hl).1.not_mem_dot) h.ne_nil
  have hne : ['.'].intercalate indices ≠ [] := by
    intro hnil
    rw [hnil] at hpieces
    exact absurd (h.index [] (hpieces ▸ List.mem_cons_self)).1.1 (by simp)
  have hsender : ElementId.parse? (['.'].intercalate indices) = some ⟨indices.map numberOf⟩ :=
    (ElementId.parse?_eq_some_iff hne).mpr (by rw [hpieces]; exact ⟨h.index, rfl⟩)
  have hchars : part.toList.all (fun c => c.isDigit || c == '.') = true := by
    rw [h.text]
    exact List.all_eq_true.mpr fun c hc => by simpa using hall c hc
  unfold parse
  rw [← h.text] at hlast
  simp only [hhead, hlast, hfirst, hend, hchars, hcut, hsender]
  rfl

end Spelled

/-- What is read as an address is written as one. -/
theorem spelled_of_parse (h : parse part = .ok a) :
    ∃ context indices, Spelled part context indices ∧ a = ⟨String.ofList context, ⟨indices.map numberOf⟩⟩ := by
  obtain ⟨hne, hdigits⟩ := contextId_of_parse h
  unfold parse at h
  dsimp only at h
  split at h
  · rename_i first last hfirst hlast
    split at h
    · cases h
    rename_i hends
    split at h
    · cases h
    split at h
    · cases h
    rename_i context sender hcut
    split at h
    · cases h
    rename_i id hid
    cases h
    rw [String.toList_ofList] at hne hdigits
    have hsplit := cut?_eq hcut
    have hsender : sender ≠ [] := by
      rintro rfl
      rw [hsplit, List.getLast?_concat] at hlast
      cases hlast
      simp at hends
    obtain ⟨hindices, rfl⟩ := (ElementId.parse?_eq_some_iff hsender).mp hid
    refine ⟨context, pieces '.' sender, ⟨?_, ⟨hne, hdigits⟩, pieces_ne_nil _ _, hindices⟩, rfl⟩
    obtain ⟨piece, rest, hpieces⟩ := List.exists_cons_of_ne_nil (pieces_ne_nil '.' sender)
    have hjoin : ['.'].intercalate (pieces '.' sender) = sender := by
      rw [pieces_eq_splitOn, List.intercalate_splitOn]
    rw [hpieces] at hjoin ⊢
    rw [List.intercalate_cons_cons, hjoin, hsplit, List.append_assoc]
    rfl
  · cases h

/-- What is not written as an address has the first fault that is looked for. -/
theorem parse_eq_fault (h : ¬ ∃ context indices, Spelled part context indices) : parse part = .error (fault part) := by
  have hread : ∀ a, parse part ≠ .ok a := fun a ha => by
    obtain ⟨context, indices, hs, -⟩ := spelled_of_parse ha
    exact h ⟨context, indices, hs⟩
  unfold parse at hread ⊢
  unfold fault
  dsimp only at hread ⊢
  generalize part.toList = s at hread ⊢
  rcases s with _ | ⟨first, rest⟩
  · rfl
  obtain ⟨last, hlast⟩ : ∃ last, (first :: rest).getLast? = some last :=
    ⟨_, List.getLast?_eq_some_getLast (List.cons_ne_nil _ _)⟩
  have hmem : last ∈ first :: rest := List.mem_of_getLast? hlast
  have hnot : ∀ c ∈ first :: rest, c.isDigit = false → (first :: rest).all Char.isDigit = false :=
    fun c hc hd => List.all_eq_false.mpr ⟨c, hc, by simp [hd]⟩
  simp only [List.head?_cons, hlast, Option.all_some] at hread ⊢
  rcases hends : first.isDigit && last.isDigit with _ | _
  · have hdigits : (first :: rest).all Char.isDigit = false := by
      rcases Bool.and_eq_false_iff.mp hends with hf | hl
      · exact hnot first List.mem_cons_self hf
      · exact hnot last hmem hl
    rw [hdigits]
    rfl
  rcases hall : (first :: rest).all (fun c => c.isDigit || c == '.') with _ | _
  · obtain ⟨c, hc, hother⟩ := List.all_eq_false.mp hall
    have hd : c.isDigit = false := by
      rcases hd : c.isDigit with _ | _
      · rfl
      · simp [hd] at hother
    rw [hnot c hc hd]
    rfl
  simp only [hends, hall, Bool.not_true, Bool.false_eq_true, if_false] at hread ⊢
  rcases hcut : cut? '.' (first :: rest) with _ | ⟨context, sender⟩
  · have hdigits : (first :: rest).all Char.isDigit = true := by
      refine List.all_eq_true.mpr fun c hc => ?_
      have hdot : c ≠ '.' := fun heq => not_mem_of_cut?_eq_none hcut (heq ▸ hc)
      simpa [hdot] using List.all_eq_true.mp hall c hc
    rw [hdigits]
    rfl
  · have hdot : '.' ∈ first :: rest := by
      rw [cut?_eq hcut]
      exact List.mem_append_right _ List.mem_cons_self
    rw [hnot '.' hdot (by decide)]
    rcases hid : ElementId.parse? sender with _ | id
    · simp only [hid]
      rfl
    · simp only [hcut, hid] at hread
      exact absurd rfl (hread _)

/-- Texts are of the same address exactly if they differ in nothing but zeros before indices. -/
theorem parse_eq_parse_iff {part' : String} {b : Address} (h : parse part = .ok a) (h' : parse part' = .ok b) :
    a = b ↔ significantParts part = significantParts part' := by
  obtain ⟨context, indices, hs, rfl⟩ := spelled_of_parse h
  obtain ⟨context', indices', hs', rfl⟩ := spelled_of_parse h'
  rw [significantParts, significantParts, hs.pieces_eq, hs'.pieces_eq]
  have hsame : ∀ ls ls' : List (List Char), (∀ l ∈ ls, IsNumber l) → (∀ l ∈ ls', IsNumber l) →
      (ls.map numberOf = ls'.map numberOf ↔ ls.map significant = ls'.map significant) := by
    intro ls
    induction ls with
    | nil => simp [eq_comm]
    | cons l ls ih =>
      intro ls' hls hls'
      obtain ⟨hl, hls⟩ := List.forall_mem_cons.mp hls
      cases ls' with
      | nil => simp
      | cons l' ls' =>
        obtain ⟨hl', hls'⟩ := List.forall_mem_cons.mp hls'
        rw [List.map_cons, List.map_cons, List.map_cons, List.map_cons, List.cons.injEq, List.cons.injEq,
          ih ls' hls hls', significant_eq_iff hl.2 hl'.2]
  have hindices := hsame indices indices' (fun l hl => (hs.index l hl).1) fun l hl => (hs'.index l hl).1
  rw [Address.mk.injEq, ElementId.mk.injEq, hindices, List.cons.injEq, String.ofList_inj]

/-- A text is read as an address exactly if it is written as one, and as what it is written as. Else
    its first fault is given. Addresses that can be written are read from their text, and from
    requests to their URL; what else is read as one of them differs in zeros before indices. -/
theorem addresses_are_numbers_between_dots (part part' : String) (a b : Address) (method : Http.Method) :
    (parse part = .ok a ↔ ∃ context indices, Spelled part context indices ∧
      a = ⟨String.ofList context, ⟨indices.map numberOf⟩⟩) ∧
    ((¬ ∃ context indices, Spelled part context indices) → parse part = .error (fault part)) ∧
    (a.Readable → parse a.text = .ok a ∧ ∃ request, Http.Request.ofUri method a.url = .ok request ∧
      ofSegments request.rawSegments = .ok a) ∧
    (parse part = .ok a → parse part' = .ok b → (a = b ↔ significantParts part = significantParts part')) := by
  refine ⟨⟨spelled_of_parse, ?_⟩, parse_eq_fault, fun h => ⟨h.parse_text, h.requested method⟩, parse_eq_parse_iff⟩
  rintro ⟨context, indices, hs, rfl⟩
  exact hs.parse_eq

/-- `3.007` is the address in `/wo/3.7`, and `3..7` is none. -/
theorem zeros_before_an_index_make_no_difference :
    let a : Address := ⟨"3", ⟨[7]⟩⟩
    a.Readable ∧ parse "3.007" = .ok a ∧ parse "3.7" = .ok a ∧ significantParts "3.007" = significantParts "3.7" ∧
      (∃ request, Http.Request.ofUri .get a.url = .ok request ∧ ofSegments request.rawSegments = .ok a) ∧
      parse "3..7" = .error (.emptyComponent "3..7") := by
  intro a
  have hread : a.Readable := ⟨by decide, List.all_eq_true.mp (by decide), by decide, by decide⟩
  have hzeros : parse "3.007" = .ok a := by decide +kernel
  have hplain : parse "3.7" = .ok a := by decide +kernel
  have hempty : ¬ ∃ context indices, Spelled "3..7" context indices := by
    rintro ⟨context, indices, hs⟩
    have hok : (parse "3..7").toOption.isSome = true := by rw [hs.parse_eq]; rfl
    exact absurd hok (by decide +kernel)
  obtain ⟨-, -, htrip, hsame⟩ := addresses_are_numbers_between_dots "3.007" "3.7" a a .get
  obtain ⟨-, hfault, -, -⟩ := addresses_are_numbers_between_dots "3..7" "3.7" a a .get
  refine ⟨hread, hzeros, hplain, (hsame hzeros hplain).mp rfl, (htrip hread).2, ?_⟩
  rw [hfault hempty]
  decide +kernel

end Address

end PageServer
