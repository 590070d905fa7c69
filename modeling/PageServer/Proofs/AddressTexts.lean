/-
  PageServer.Proofs.AddressTexts — the address in a URL is the one that was written there.

  An address is written as digits between dots, so its text is cut at the dots into the numbers it
  was made of (`Address.parse_text`). None of its characters has a meaning of its own in a URL: a
  request for the URL has the address as its second path segment, as it is
  (`Address.requested`). A number over `ElementId.maxIndex` can't be read back.
-/

import PageServer.Proofs.Addresses
import PageServer.Proofs.PercentCoding

namespace PageServer

/-! ## Cutting texts -/

namespace Text

theorem pieces_eq_splitOn (sep : Char) (s : List Char) : pieces sep s = s.splitOn sep := by
  induction s with
  | nil => rfl
  | cons c rest ih =>
    have hcons : pieces sep (c :: rest) =
        if c = sep then [] :: pieces sep rest else (pieces sep rest).modifyHead (c :: ·) := by
      simp only [pieces, List.foldr_cons]
      split
      · rfl
      · cases hrest : pieces sep rest with
        | nil => exact absurd hrest (pieces_ne_nil sep rest)
        | cons p ps => simp only [pieces] at hrest; rw [hrest]; rfl
    rw [hcons, ih, List.splitOn, List.splitOn, List.splitOnP_cons_eq_if_modifyHead]
    by_cases hc : c = sep <;> simp [hc]

theorem pieces_intercalate {sep : Char} {parts : List (List Char)} (h : ∀ p ∈ parts, sep ∉ p) (hne : parts ≠ []) :
    pieces sep ([sep].intercalate parts) = parts := by
  rw [pieces_eq_splitOn]
  exact List.splitOn_intercalate sep h hne

theorem pieces_append (sep : Char) (a b : List Char) : pieces sep (a ++ sep :: b) = pieces sep a ++ pieces sep b := by
  rw [pieces_eq_splitOn, pieces_eq_splitOn, pieces_eq_splitOn, List.splitOn_append_cons_self]

theorem join_cons (sep : Char) (p : List Char) {parts : List (List Char)} (h : parts ≠ []) :
    join sep (p :: parts) = p ++ sep :: join sep parts := by
  rw [join, List.intercalate_cons_of_ne_nil h, List.append_assoc]
  rfl

/-- Joined parts are cut where they were joined, and where they hold the separator themselves. -/
theorem pieces_join (sep : Char) {parts : List (List Char)} (h : parts ≠ []) :
    pieces sep (join sep parts) = parts.flatMap (pieces sep) := by
  induction parts with
  | nil => exact absurd rfl h
  | cons p parts ih =>
    by_cases hparts : parts = []
    · subst hparts
      simp [join]
    · rw [join_cons sep p hparts, pieces_append, ih hparts, List.flatMap_cons]

theorem fullPieces_cons (sep : Char) (s : List Char) : fullPieces sep (sep :: s) = fullPieces sep s := by
  have hpieces : pieces sep (sep :: s) = [] :: pieces sep s := pieces_append sep [] s
  rw [fullPieces, hpieces, List.filter_cons_of_neg (by decide), ← fullPieces]

/-- Parts that are not empty and do not hold the separator are cut apart again. -/
theorem fullPieces_join {sep : Char} {parts : List (List Char)} (hne : ∀ p ∈ parts, p ≠ [])
    (h : ∀ p ∈ parts, sep ∉ p) : fullPieces sep (join sep parts) = parts := by
  cases parts with
  | nil => rfl
  | cons p parts =>
    rw [fullPieces, join, pieces_intercalate h (List.cons_ne_nil _ _), List.filter_eq_self]
    simpa using hne

theorem mem_join {sep c : Char} {parts : List (List Char)} (h : c ∈ join sep parts) : c = sep ∨ ∃ p ∈ parts, c ∈ p := by
  induction parts with
  | nil => cases h
  | cons p parts ih =>
    by_cases hparts : parts = []
    · subst hparts
      exact .inr ⟨p, List.mem_cons_self, by simpa [join] using h⟩
    · rw [join_cons sep p hparts] at h
      rcases List.mem_append.mp h with h | h
      · exact .inr ⟨p, List.mem_cons_self, h⟩
      rcases List.mem_cons.mp h with rfl | h
      · exact .inl rfl
      · exact (ih h).imp_right fun ⟨q, hq, hc⟩ => ⟨q, List.mem_cons_of_mem _ hq, hc⟩

/-- What lies in `p` is all taken, up to what does not. -/
theorem taken_append {α : Type} {p : α → Bool} {w rest : List α} (hw : ∀ x ∈ w, p x = true)
    (hrest : ∀ x ∈ rest.head?, p x = false) :
    (w ++ rest).takeWhile p = w ∧ (w ++ rest).dropWhile p = rest := by
  rw [List.takeWhile_append_of_pos hw, List.dropWhile_append_of_pos hw]
  cases rest with
  | nil => simp
  | cons x rest =>
    have hx : ¬p x = true := Bool.eq_false_iff.mp (hrest x rfl)
    rw [List.takeWhile_cons_of_neg hx, List.dropWhile_cons_of_neg hx, List.append_nil]
    exact ⟨rfl, rfl⟩

theorem cut?_eq_some {sep : Char} {a : List Char} (h : sep ∉ a) (b : List Char) :
    cut? sep (a ++ sep :: b) = some (a, b) := by
  have hkeep : ∀ c ∈ a, (c != sep) = true := fun c hc => bne_iff_ne.mpr fun heq => h (heq ▸ hc)
  unfold cut?
  rw [List.dropWhile_append_of_pos hkeep, List.takeWhile_append_of_pos hkeep]
  simp

theorem not_mem_of_cut? {sep : Char} {s a b : List Char} (h : cut? sep s = some (a, b)) : sep ∉ a := by
  unfold cut? at h
  split at h
  · cases h
  · cases h
    intro hmem
    have hkept := List.all_eq_true.mp (List.all_takeWhile (p := (· != sep)) (l := s)) sep hmem
    simp at hkept

theorem cut?_eq_none {sep : Char} {s : List Char} (h : sep ∉ s) : cut? sep s = none := by
  have hkeep : ∀ c ∈ s, (c != sep) = true := fun c hc => bne_iff_ne.mpr fun heq => h (heq ▸ hc)
  have hnil : (s ++ []).dropWhile (· != sep) = [] := List.dropWhile_append_of_pos hkeep
  rw [List.append_nil] at hnil
  rw [cut?, hnil]

theorem pieces_of_not_mem {sep : Char} {s : List Char} (h : sep ∉ s) : pieces sep s = [s] := by
  rw [pieces_eq_splitOn, List.splitOn_eq_singleton h]

theorem not_mem_of_mem_pieces {sep : Char} {s p : List Char} (h : p ∈ pieces sep s) : sep ∉ p := by
  rw [pieces_eq_splitOn] at h
  induction s generalizing p with
  | nil =>
    obtain rfl := List.mem_singleton.mp h
    exact List.not_mem_nil
  | cons c s ih =>
    rw [List.splitOn_cons_eq_if_modifyHead] at h
    rcases hs : s.splitOn sep with _ | ⟨q, qs⟩
    · exact absurd hs (List.splitOn_ne_nil _ _)
    rw [hs] at h ih
    by_cases hc : c = sep
    · rw [if_pos (by simpa using hc)] at h
      rcases List.mem_cons.mp h with rfl | h
      · exact List.not_mem_nil
      · exact ih h
    · rw [if_neg (by simpa using hc), List.modifyHead_cons] at h
      rcases List.mem_cons.mp h with rfl | h
      · exact fun hmem => (List.mem_cons.mp hmem).elim (Ne.symm hc) (ih List.mem_cons_self)
      · exact ih (List.mem_cons_of_mem _ h)

theorem mem_fullPieces {sep : Char} {s p : List Char} (h : p ∈ fullPieces sep s) : p ≠ [] ∧ sep ∉ p := by
  obtain ⟨hmem, hfull⟩ := List.mem_filter.mp h
  exact ⟨by simpa using hfull, not_mem_of_mem_pieces hmem⟩

theorem join_eq_nil_iff {sep : Char} {ps : List (List Char)} (h : ∀ p ∈ ps, p ≠ []) : join sep ps = [] ↔ ps = [] := by
  refine ⟨fun hjoin => ?_, fun hps => hps ▸ rfl⟩
  cases ps with
  | nil => rfl
  | cons p ps =>
    have hp : p = [] := by
      by_cases hps : ps = []
      · subst hps
        simpa [join] using hjoin
      · rw [join_cons sep p hps] at hjoin
        exact (List.append_eq_nil_iff.mp hjoin).1
    exact absurd hp (h p List.mem_cons_self)

/-- Parts that cannot be cut any further are joined to the text of others if the others are cut into
    them. -/
theorem join_eq_join_iff {sep : Char} {fs ps : List (List Char)}
    (hfs : ∀ f ∈ fs, f ≠ [] ∧ sep ∉ f) (hps : ∀ p ∈ ps, p ≠ []) :
    join sep fs = join sep ps ↔ fs = ps.flatMap (pieces sep) := by
  by_cases hp : ps = []
  · rw [hp, List.flatMap_nil]
    exact join_eq_nil_iff fun f hf => (hfs f hf).1
  rw [← pieces_join sep hp]
  constructor
  · intro h
    have hf : fs ≠ [] := by
      rintro rfl
      exact hp ((join_eq_nil_iff hps).mp h.symm)
    rw [← h, join, pieces_intercalate (fun f hf => (hfs f hf).2) hf]
  · rintro rfl
    rw [pieces_eq_splitOn, join, List.intercalate_splitOn]

/-! ## Reading numbers -/

theorem digitValue?_of_isDigit {c : Char} (h : c.isDigit = true) : digitValue? c = some (c.toNat - '0'.toNat) := by
  rw [digitValue?, if_pos h]
  rfl

theorem le_ofDigitChars (s : List Char) (n : Nat) : n ≤ Nat.ofDigitChars 10 s n := by
  induction s generalizing n with
  | nil => exact Nat.le_refl n
  | cons c rest ih =>
    rw [Nat.ofDigitChars_cons]
    exact Nat.le_trans (by omega) (ih _)

theorem readDigits_eq_ok {limit : Nat} {excess : NumberError} {s : List Char} {n : Nat} (h : ∀ c ∈ s, c.isDigit = true)
    (hlimit : Nat.ofDigitChars 10 s n ≤ limit) : readDigits limit excess n s = .ok (Nat.ofDigitChars 10 s n) := by
  induction s generalizing n with
  | nil => rfl
  | cons c rest ih =>
    rw [Nat.ofDigitChars_cons] at hlimit ⊢
    rw [readDigits, digitValue?_of_isDigit (h c List.mem_cons_self)]
    dsimp only
    rw [Nat.mul_comm n 10, if_pos (Nat.le_trans (le_ofDigitChars rest _) hlimit)]
    exact ih (fun c' hc' => h c' (List.mem_cons_of_mem _ hc')) hlimit

theorem isDigit_toDigits {n : Nat} {c : Char} (hc : c ∈ Nat.toDigits 10 n) : c.isDigit = true :=
  Nat.isDigit_of_mem_toDigits (by decide) (by decide) hc

theorem readDigits_toDigits {limit n : Nat} {excess : NumberError} (h : n ≤ limit) :
    readDigits limit excess 0 (Nat.toDigits 10 n) = .ok n := by
  have hvalue : Nat.ofDigitChars 10 (Nat.toDigits 10 n) 0 = n := Nat.ofDigitChars_ten_toDigits
  have hread : readDigits limit excess 0 (Nat.toDigits 10 n) = .ok (Nat.ofDigitChars 10 (Nat.toDigits 10 n) 0) :=
    readDigits_eq_ok (fun _ => isDigit_toDigits) (by rw [hvalue]; exact h)
  rwa [hvalue] at hread

theorem readNat_toDigits {limit n : Nat} (h : n ≤ limit) : readNat limit (Nat.toDigits 10 n) = .ok n := by
  unfold readNat
  split
  · rename_i hnil
    exact absurd hnil Nat.toDigits_ne_nil
  · rename_i hplus
    exact absurd (isDigit_toDigits (n := n) (c := '+') (by simp [hplus])) (by decide)
  · rename_i rest hplus
    exact absurd (isDigit_toDigits (n := n) (c := '+') (by simp [hplus])) (by decide)
  · exact readDigits_toDigits h

theorem digits_toString (n : Nat) : (toString n).toList ≠ [] ∧ ∀ c ∈ (toString n).toList, c.isDigit = true := by
  have hdigits : (toString n).toList = Nat.toDigits 10 n := by simp [toString, Nat.repr]
  rw [hdigits]
  exact ⟨Nat.toDigits_ne_nil, fun _ => Text.isDigit_toDigits⟩

/-! ## Decoding -/

/-- A character that stands for itself in a URL, and is one byte. -/
def Plain (c : Char) : Prop := c ≠ '%' ∧ c.toNat < 128

theorem percentDecode_of_plain {s : List Char} (h : ∀ c ∈ s, Plain c) : percentDecode s = .ok s :=
  percentDecode_of_not_mem fun hmem => (h '%' hmem).1 rfl

end Text

/-! ## Addresses -/

namespace ElementId

/-- Numbers with dots between them: digits and dots, with a digit at the end. -/
theorem dotted {ls : List (List Char)} (hne : ls ≠ []) (h : ∀ l ∈ ls, l ≠ [] ∧ ∀ c ∈ l, c.isDigit = true) :
    (∀ c ∈ ['.'].intercalate ls, c.isDigit = true ∨ c = '.') ∧
      ∃ last, (['.'].intercalate ls).getLast? = some last ∧ last.isDigit = true := by
  induction ls with
  | nil => exact absurd rfl hne
  | cons l rest ih =>
    obtain ⟨hl, hdigits⟩ := h l List.mem_cons_self
    rcases rest with _ | ⟨l', rest⟩
    · rw [List.intercalate_singleton]
      exact ⟨fun c hc => .inl (hdigits c hc), l.getLast hl, List.getLast?_eq_some_getLast hl,
        hdigits _ (List.getLast_mem hl)⟩
    · obtain ⟨hall, last, hlast, hd⟩ := ih (List.cons_ne_nil _ _) fun l hl => h l (List.mem_cons_of_mem _ hl)
      rw [List.intercalate_cons_cons, List.append_assoc]
      refine ⟨fun c hc => ?_, last, by rw [List.getLast?_append, List.getLast?_append, hlast]; rfl, hd⟩
      rcases List.mem_append.mp hc with hc | hc
      · exact .inl (hdigits c hc)
      · rcases List.mem_append.mp hc with hc | hc
        · exact .inr (List.mem_singleton.mp hc)
        · exact hall c hc

theorem text_dotted {id : ElementId} (hne : id.indices ≠ []) :
    (∀ c ∈ id.text.toList, c.isDigit = true ∨ c = '.') ∧
      ∃ last, id.text.toList.getLast? = some last ∧ last.isDigit = true := by
  rw [text_toList]
  refine dotted (by simpa [digits] using hne) fun l hl => ?_
  obtain ⟨n, -, rfl⟩ := List.mem_map.mp hl
  exact ⟨Nat.toDigits_ne_nil, fun _ => Text.isDigit_toDigits⟩

/-- The id is read back from its text, unless it has an index that is too large. -/
theorem parse?_text {id : ElementId} (hne : id.indices ≠ []) (hmax : ∀ i ∈ id.indices, i ≤ maxIndex) :
    parse? id.text.toList = some id := by
  have hpieces : Text.pieces '.' id.text.toList = id.digits := by
    rw [Text.pieces_eq_splitOn, text_splitOn hne]
  have hread : ∀ l : List Nat, (∀ i ∈ l, i ≤ maxIndex) → (l.map (Nat.toDigits 10)).mapM readIndex? = some l := by
    intro l
    induction l with
    | nil => exact fun _ => rfl
    | cons n rest ih =>
      intro h
      have hn : readIndex? (Nat.toDigits 10 n) = some n := by
        have hall : (Nat.toDigits 10 n).all Char.isDigit = true :=
          List.all_eq_true.mpr fun _ => Text.isDigit_toDigits
        have hnil : (Nat.toDigits 10 n).isEmpty = false := List.isEmpty_eq_false_iff.mpr Nat.toDigits_ne_nil
        rw [readIndex?, hall, hnil, Text.readNat_toDigits (h n List.mem_cons_self)]
        rfl
      rw [List.map_cons, List.mapM_cons, hn, ih fun i hi => h i (List.mem_cons_of_mem _ hi)]
      rfl
  have htext : id.text.toList.isEmpty = false :=
    List.isEmpty_eq_false_iff.mpr fun hnil => hne (text_eq_empty hnil)
  rw [parse?, htext, hpieces, digits, hread _ hmax]
  rfl

end ElementId

namespace Address

/-- An address with a numeric context id, of an element other than the root at indices that can be
    written. -/
structure Readable (a : Address) : Prop where
  contextId : a.contextId.toList ≠ []
  digits : ∀ c ∈ a.contextId.toList, c.isDigit = true
  sender : a.sender.indices ≠ []
  indices : ∀ i ∈ a.sender.indices, i ≤ ElementId.maxIndex

namespace Readable

variable {a : Address} (h : a.Readable)
include h

omit h in
theorem text_toList (a : Address) : a.text.toList = a.contextId.toList ++ '.' :: a.sender.text.toList := by
  simp [text]

theorem mem_text {c : Char} (hc : c ∈ a.text.toList) : c.isDigit = true ∨ c = '.' := by
  rw [text_toList] at hc
  rcases List.mem_append.mp hc with hc | hc
  · exact .inl (h.digits c hc)
  · rcases List.mem_cons.mp hc with rfl | hc
    · exact .inr rfl
    · exact (ElementId.text_dotted h.sender).1 c hc

theorem not_mem_text {c : Char} (hc : c.isDigit = false) (hdot : c ≠ '.') : c ∉ a.text.toList := by
  intro hmem
  rcases h.mem_text hmem with hd | rfl
  · rw [hc] at hd
    cases hd
  · exact hdot rfl

/-- The text of an address begins and ends with a digit. -/
theorem ends : ∃ first last, a.text.toList.head? = some first ∧ a.text.toList.getLast? = some last ∧
    first.isDigit = true ∧ last.isDigit = true := by
  obtain ⟨first, rest, hfirst⟩ := List.exists_cons_of_ne_nil h.contextId
  obtain ⟨-, last, hlast, hd⟩ := ElementId.text_dotted h.sender
  refine ⟨first, last, ?_, ?_, h.digits first (by rw [hfirst]; exact List.mem_cons_self), hd⟩
  · rw [text_toList, hfirst]
    rfl
  · rw [text_toList, List.getLast?_append, List.getLast?_cons, hlast]
    rfl

/-- The address is read back from its text. -/
theorem parse_text : parse a.text = .ok a := by
  obtain ⟨first, last, hhead, hlast, hfirst, hend⟩ := h.ends
  have hall : a.text.toList.all (fun c => c.isDigit || c == '.') = true := by
    refine List.all_eq_true.mpr fun c hc => ?_
    rcases h.mem_text hc with hd | rfl
    · simp [hd]
    · simp
  have hcut : Text.cut? '.' a.text.toList = some (a.contextId.toList, a.sender.text.toList) := by
    rw [text_toList]
    exact Text.cut?_eq_some (fun hdot => absurd (h.digits '.' hdot) (by decide)) _
  unfold parse
  simp only [hhead, hlast, hfirst, hend, hall, hcut, ElementId.parse?_text h.sender h.indices]
  simp

/-- A request for the URL is accepted, and its address is the one that was written. -/
theorem requested (method : Http.Method) : ∃ request, Http.Request.ofUri method a.url = .ok request ∧
    Address.ofSegments request.rawSegments = .ok a := by
  have hplain : ∀ c, c.isDigit = true ∨ c = '.' → Text.Plain c := by
    rintro c (hc | rfl)
    · have hrange := Char.isDigit_iff_toNat.mp hc
      refine ⟨fun heq => absurd hc (by subst heq; decide), Nat.lt_of_le_of_lt hrange.2 (by decide)⟩
    · exact ⟨by decide, by decide⟩
  have hurl : a.url.toList = ['/'].intercalate [[], ['w', 'o'], a.text.toList] := by
    simp [url, handlerKey, List.intercalate]
  have hpieces : Text.pieces '/' a.url.toList = [[], ['w', 'o'], a.text.toList] := by
    rw [hurl]
    refine Text.pieces_intercalate ?_ (List.cons_ne_nil _ _)
    simp [h.not_mem_text (c := '/') rfl (by decide)]
  have hquery : Text.cut? '?' a.url.toList = none := by
    refine Text.cut?_eq_none fun hmem => ?_
    simp [url, handlerKey, h.not_mem_text (c := '?') rfl (by decide)] at hmem
  have hfull : Text.fullPieces '/' a.url.toList = [['w', 'o'], a.text.toList] := by
    have hne : a.text.toList ≠ [] := by simp [text]
    rw [Text.fullPieces, hpieces]
    simp [hne]
  refine ⟨{ method := method, uri := a.url, path := a.url, segments := [handlerKey, a.text] }, ?_, ?_⟩
  · have hwo : Text.percentDecode ['w', 'o'] = .ok ['w', 'o'] :=
      Text.percentDecode_of_plain (by simp [Text.Plain])
    have htext : Text.percentDecode a.text.toList = .ok a.text.toList :=
      Text.percentDecode_of_plain fun c hc => hplain c (h.mem_text hc)
    have hsegments : [['w', 'o'], a.text.toList].mapM Text.percentDecode = .ok [['w', 'o'], a.text.toList] := by
      rw [List.mapM_cons, List.mapM_cons, hwo, htext]
      rfl
    have hform : Text.formPairs [] = .ok [] := rfl
    unfold Http.Request.ofUri
    simp only [hquery, Option.getD_none, hfull]
    rw [hsegments, hform]
    show Except.ok (Http.Request.mk method a.url (String.ofList a.url.toList)
      ([['w', 'o'], a.text.toList].map String.ofList) {} {} {} .empty none) = _
    rw [String.ofList_toList, List.map_cons, List.map_singleton, String.ofList_toList]
    rfl
  · have hrest : a.url.toList = '/' :: ['/'].intercalate [['w', 'o'], a.text.toList] := hurl
    have hraw : Text.pieces '/' (['/'].intercalate [['w', 'o'], a.text.toList]) = [['w', 'o'], a.text.toList] := by
      refine Text.pieces_intercalate ?_ (List.cons_ne_nil _ _)
      simp [h.not_mem_text (c := '/') rfl (by decide)]
    simp only [Http.Request.rawSegments, hrest, hraw, List.map_cons, List.map_nil, String.ofList_toList]
    rw [ofSegments, if_pos (by decide), h.parse_text]

end Readable

/-- The context id of an address that was read is a number. -/
theorem contextId_of_parse {part : String} {a : Address} (h : parse part = .ok a) :
    a.contextId.toList ≠ [] ∧ ∀ c ∈ a.contextId.toList, c.isDigit = true := by
  unfold parse at h
  dsimp only at h
  split at h
  · rename_i first last hfirst hlast
    split at h
    · cases h
    rename_i hends
    split at h
    · cases h
    rename_i hall
    split at h
    · cases h
    rename_i context sender hcut
    split at h
    · cases h
    cases h
    have hsplit := Text.cut?_eq hcut
    have hcontext : ∀ c ∈ context, c.isDigit = true := by
      intro c hc
      have hdot : c ≠ '.' := by
        rintro rfl
        exact Text.not_mem_of_cut? hcut hc
      simp only [Bool.not_eq_true, Bool.not_eq_false', List.all_eq_true] at hall
      simpa [hdot] using hall c (hsplit ▸ List.mem_append_left _ hc)
    refine ⟨fun hnil => ?_, by simpa using hcontext⟩
    have hnil : context = [] := by simpa using hnil
    rw [hsplit, hnil] at hfirst
    cases hfirst
    exact hends rfl
  · cases h

end Address

end PageServer
