/-
  PageServer.Proofs.Markup — values stay inside of the tags that they are written into.

  An escaped text holds no sign that could end it (`not_mem_htmlEscape`). Each `&` in it begins one of
  five entities (`entity_of_htmlEscape`), and with the entities read as characters it is the text
  again (`unescapeHtml_htmlEscape`). So a tag is read back with the values that it was written with,
  whatever they hold (`readTag?_tag`), and the scanner of templates finds its end where it was
  written (`cutEnd?_tagInside`).

  Only values are escaped. The names of a tag and of its attributes are written as they are, and have
  to be made of `isNameChar`.
-/

import PageServer.Proofs.Tags
import PageServer.Text.Markup

namespace PageServer.Text

/-! ## Escaped texts -/

/-- The entities that stand for characters with a meaning. -/
def entities : List String := ["&lt;", "&gt;", "&amp;", "&quot;", "&#39;"]

/-- A text with the entities in it read as characters. Any other `&` stands for itself. -/
def unescapeHtml : List Char → List Char
  | '&' :: 'l' :: 't' :: ';' :: r => '<' :: unescapeHtml r
  | '&' :: 'g' :: 't' :: ';' :: r => '>' :: unescapeHtml r
  | '&' :: 'a' :: 'm' :: 'p' :: ';' :: r => '&' :: unescapeHtml r
  | '&' :: 'q' :: 'u' :: 'o' :: 't' :: ';' :: r => '"' :: unescapeHtml r
  | '&' :: '#' :: '3' :: '9' :: ';' :: r => '\'' :: unescapeHtml r
  | c :: r => c :: unescapeHtml r
  | [] => []

theorem unescapeHtml_other {c : Char} (h : c ≠ '&') (r : List Char) : unescapeHtml (c :: r) = c :: unescapeHtml r := by
  rw [unescapeHtml.eq_6] <;> intros <;> contradiction

theorem unescapeHtml_htmlChar (c : Char) (r : List Char) : unescapeHtml (htmlChar c ++ r) = c :: unescapeHtml r := by
  unfold htmlChar
  split_ifs with hlt hgt hamp hquot hapos
  · subst hlt; rfl
  · subst hgt; rfl
  · subst hamp; rfl
  · subst hquot; rfl
  · subst hapos; rfl
  · exact unescapeHtml_other hamp r

/-- Decoding undoes escaping. -/
theorem unescapeHtml_htmlEscape (s : String) : unescapeHtml (htmlEscape s).toList = s.toList := by
  rw [htmlEscape, String.toList_ofList]
  induction s.toList with
  | nil => rfl
  | cons c r ih => rw [List.flatMap_cons, unescapeHtml_htmlChar, ih]

/-- A character is written as an entity, or it has no meaning and is written as itself. -/
theorem htmlChar_cases (c : Char) :
    (∃ e ∈ entities, htmlChar c = e.toList) ∨ (c ∉ ['&', '<', '>', '"', '\''] ∧ htmlChar c = [c]) := by
  unfold htmlChar
  split_ifs with hlt hgt hamp hquot hapos
  · exact .inl ⟨"&lt;", by decide, by decide⟩
  · exact .inl ⟨"&gt;", by decide, by decide⟩
  · exact .inl ⟨"&amp;", by decide, by decide⟩
  · exact .inl ⟨"&quot;", by decide, by decide⟩
  · exact .inl ⟨"&#39;", by decide, by decide⟩
  · exact .inr ⟨by simp [hlt, hgt, hamp, hquot, hapos], rfl⟩

/-- Neither tags nor quoted values end in an escaped text. -/
theorem not_mem_htmlEscape (s : String) : ∀ c ∈ ['<', '>', '"', '\''], c ∉ (htmlEscape s).toList := by
  have hentities : ∀ e ∈ entities, ∀ c ∈ ['<', '>', '"', '\''], c ∉ e.toList := by decide
  intro c hc hmem
  rw [htmlEscape, String.toList_ofList] at hmem
  obtain ⟨d, -, hmem⟩ := List.mem_flatMap.mp hmem
  rcases htmlChar_cases d with ⟨e, he, heq⟩ | ⟨hd, heq⟩
  · rw [heq] at hmem
    exact hentities e he c hc hmem
  · rw [heq, List.mem_singleton] at hmem
    subst hmem
    exact hd (List.mem_cons_of_mem _ hc)

/-- What begins with a sign that `w` does not hold begins after `w`. -/
theorem suffix_of_not_mem {c : Char} {w after r : List Char} (hw : c ∉ w) (h : (c :: after) <:+ w ++ r) :
    (c :: after) <:+ r := by
  induction w with
  | nil => exact h
  | cons d w ih =>
    obtain ⟨hne, hw⟩ := not_or.mp (mt List.mem_cons.mpr hw)
    rcases List.suffix_cons_iff.mp h with heq | h
    · exact absurd (List.cons.inj heq).1 hne
    · exact ih hw h

/-- Every `&` of an escaped text begins an entity. -/
theorem entity_of_htmlEscape {s : String} {after : List Char} (h : ('&' :: after) <:+ (htmlEscape s).toList) :
    ∃ e ∈ entities, e.toList <+: '&' :: after := by
  have hentities : ∀ e ∈ entities, e.toList = '&' :: e.toList.tail ∧ '&' ∉ e.toList.tail := by decide
  rw [htmlEscape, String.toList_ofList] at h
  generalize s.toList = l at h
  induction l with
  | nil => cases List.suffix_nil.mp h
  | cons c r ih =>
    rw [List.flatMap_cons] at h
    rcases htmlChar_cases c with ⟨e, he, heq⟩ | ⟨hc, heq⟩
    · obtain ⟨htext, hrest⟩ := hentities e he
      rw [heq, htext, List.cons_append] at h
      rcases List.suffix_cons_iff.mp h with hhere | hlater
      · refine ⟨e, he, ?_⟩
        rw [hhere, htext]
        exact ⟨_, rfl⟩
      · exact ih (suffix_of_not_mem hrest hlater)
    · rw [heq] at h
      refine ih (suffix_of_not_mem (fun hmem => hc ?_) h)
      rw [← List.mem_singleton.mp hmem]
      exact List.mem_cons_self

/-! ## Tags -/

/-- What the name of a tag or of an attribute may be made of: letters, digits and most signs. -/
def isNameChar (c : Char) : Bool := !isBlank c && !(['"', '\'', '=', '>', '/'].contains c)

/-- A pair such as ` key="value"`, the value decoded, and the text after it. -/
def readPair? : List Char → Option ((String × String) × List Char)
  | ' ' :: r =>
    match r.dropWhile isNameChar with
    | '=' :: '"' :: v =>
      (cut? '"' v).map fun (value, rest) =>
        ((String.ofList (r.takeWhile isNameChar), String.ofList (unescapeHtml value)), rest)
    | _ => none
  | _ => none

theorem readPair?_length {s rest : List Char} {p : String × String} (h : readPair? s = some (p, rest)) :
    rest.length < s.length := by
  unfold readPair? at h
  split at h
  · rename_i r
    split at h
    · rename_i v hv
      obtain ⟨⟨value, rest'⟩, hcut, heq⟩ := Option.map_eq_some_iff.mp h
      cases heq
      have hlater : (r.dropWhile isNameChar).length ≤ r.length := (List.dropWhile_suffix _).length_le
      have hrest := cut?_length hcut
      rw [hv] at hlater
      simp only [List.length_cons] at hlater ⊢
      omega
    · cases h
  · cases h

/-- The pairs that a tag goes on with, and whether it is closed in itself at its end. -/
def readPairs? (s : List Char) : Option (List (String × String) × Bool) :=
  if s = ['>'] then some ([], false)
  else if s = [' ', '/', '>'] then some ([], true)
  else match _h : readPair? s with
    | some (p, rest) => (readPairs? rest).map fun (pairs, closed) => (p :: pairs, closed)
    | none => none
  termination_by s.length
  decreasing_by exact readPair?_length _h

/-- The name of a tag, its attributes, and whether it is closed in itself. -/
def readTag? : List Char → Option (String × List (String × String) × Bool)
  | '<' :: r => (readPairs? (r.dropWhile isNameChar)).map (String.ofList (r.takeWhile isNameChar), ·)
  | _ => none

theorem readPairs?_cons {s rest : List Char} {p : String × String} (h : readPair? s = some (p, rest)) :
    readPairs? s = (readPairs? rest).map fun (pairs, closed) => (p :: pairs, closed) := by
  have hopen : s ≠ ['>'] := by
    rintro rfl
    cases h
  have hclosed : s ≠ [' ', '/', '>'] := by
    rintro rfl
    rw [show readPair? [' ', '/', '>'] = none by decide] at h
    cases h
  rw [readPairs?, if_neg hopen, if_neg hclosed]
  split
  · rename_i h'
    rw [h] at h'
    cases h'
    rfl
  · rename_i h'
    rw [h] at h'
    cases h'

variable {name : String} {attributes : List (String × Option String)} {selfClosing : Bool}

/-- What stands before the end of a tag that is closed in itself. -/
def closingMark (selfClosing : Bool) : List Char := if selfClosing then [' ', '/'] else []

theorem readPairs?_end (selfClosing : Bool) : readPairs? (closingMark selfClosing ++ ['>']) = some ([], selfClosing) := by
  cases selfClosing
  · rw [closingMark, if_neg (by decide), List.nil_append, readPairs?, if_pos rfl]
  · rw [closingMark, if_pos rfl, List.cons_append, List.singleton_append, readPairs?, if_neg (by decide), if_pos rfl]

/-- The attributes of a tag as they are written. -/
def writtenAttributes (attributes : List (String × Option String)) : List Char :=
  attributes.flatMap fun a => (tagAttribute a).toList

theorem writtenAttributes_cons (a : String × Option String) (attributes : List (String × Option String)) :
    writtenAttributes (a :: attributes) = (tagAttribute a).toList ++ writtenAttributes attributes := List.flatMap_cons

/-- A tag without the signs that it begins and ends with. -/
def tagInside (name : String) (attributes : List (String × Option String)) (selfClosing : Bool) : List Char :=
  name.toList ++ (writtenAttributes attributes ++ closingMark selfClosing)

theorem tag_toList :
    (tag name attributes selfClosing).toList = '<' :: (tagInside name attributes selfClosing ++ ['>']) := by
  cases selfClosing <;> simp [tag, tagInside, closingMark, writtenAttributes, List.flatMap_map]

theorem tagAttribute_some (key value : String) : (tagAttribute (key, some value)).toList =
    ' ' :: (key.toList ++ '=' :: '"' :: ((htmlEscape value).toList ++ ['"'])) := by
  simp [tagAttribute]

/-- A written attribute is read back, and the text after it is what is left. -/
theorem readPair?_attribute {key : String} (hkey : ∀ c ∈ key.toList, isNameChar c = true) (value : String)
    (rest : List Char) :
    readPair? ((tagAttribute (key, some value)).toList ++ rest) = some ((key, value), rest) := by
  have hname : ∀ c ∈ ('=' :: '"' :: ((htmlEscape value).toList ++ '"' :: rest)).head?, isNameChar c = false := by
    rintro c ⟨⟩
    decide
  have hvalue : '"' ∉ (htmlEscape value).toList := not_mem_htmlEscape value _ (by decide)
  obtain ⟨htake, hdrop⟩ := taken_append hkey hname
  have htext : (tagAttribute (key, some value)).toList ++ rest =
      ' ' :: (key.toList ++ '=' :: '"' :: ((htmlEscape value).toList ++ '"' :: rest)) := by
    simp [tagAttribute_some]
  rw [htext, readPair?, hdrop]
  simp only [cut?_eq_some hvalue, htake, Option.map_some, unescapeHtml_htmlEscape, String.ofList_toList]

/-- The attributes that have a value. -/
def withValues (attributes : List (String × Option String)) : List (String × String) :=
  attributes.filterMap fun a => a.2.map (a.1, ·)

theorem readPairs?_attributes (h : ∀ a ∈ attributes, ∀ c ∈ a.1.toList, isNameChar c = true) :
    readPairs? (writtenAttributes attributes ++ closingMark selfClosing ++ ['>']) =
      some (withValues attributes, selfClosing) := by
  induction attributes with
  | nil => exact readPairs?_end selfClosing
  | cons a attributes ih =>
    have hrest := ih fun a ha => h a (List.mem_cons_of_mem _ ha)
    rw [List.append_assoc] at hrest
    obtain ⟨key, value | value⟩ := a
    · rw [List.append_assoc]
      exact hrest
    · rw [writtenAttributes_cons, List.append_assoc, List.append_assoc,
        readPairs?_cons (readPair?_attribute (h _ List.mem_cons_self) value _), hrest]
      rfl

/-- A name ends where the attributes begin. -/
theorem head_after_name : ∀ c ∈ (writtenAttributes attributes ++ closingMark selfClosing ++ ['>']).head?,
    isNameChar c = false := by
  induction attributes with
  | nil =>
    cases selfClosing <;>
    · rintro c ⟨⟩
      decide
  | cons a attributes ih =>
    obtain ⟨key, value | value⟩ := a
    · exact ih
    · have hblank : isNameChar ' ' = false := by decide
      simpa [writtenAttributes_cons, tagAttribute_some] using hblank

/-- A tag is read back with the attributes that have a value. -/
theorem readTag?_tag (hname : ∀ c ∈ name.toList, isNameChar c = true)
    (h : ∀ a ∈ attributes, ∀ c ∈ a.1.toList, isNameChar c = true) :
    readTag? (tag name attributes selfClosing).toList = some (name, withValues attributes, selfClosing) := by
  have hhead := @head_after_name attributes selfClosing
  obtain ⟨htake, hdrop⟩ := taken_append hname hhead
  rw [tag_toList, tagInside, List.append_assoc, readTag?, hdrop, htake, readPairs?_attributes h, String.ofList_toList]
  rfl

/-! ## The end of a tag -/

theorem isNameChar_plain {c : Char} (h : isNameChar c = true) : c ≠ '"' ∧ c ≠ '\'' ∧ c ≠ '>' := by
  refine ⟨?_, ?_, ?_⟩ <;>
  · rintro rfl
    exact absurd h (by decide)

section

open Template.Tag

theorem cutEnd?_tagAttribute {key : String} (hkey : ∀ c ∈ key.toList, isNameChar c = true) (value : String)
    (s : List Char) : cutEnd? none ((tagAttribute (key, some value)).toList ++ s) =
      (cutEnd? none s).map fun p => ((tagAttribute (key, some value)).toList ++ p.1, p.2) := by
  have hplain : ∀ c ∈ ' ' :: (key.toList ++ ['=']), c ≠ '"' ∧ c ≠ '\'' ∧ c ≠ '>' :=
    List.forall_mem_cons.mpr
      ⟨by decide, List.forall_mem_append.mpr ⟨fun c hc => isNameChar_plain (hkey c hc), by decide⟩⟩
  have hvalue : '"' ∉ (htmlEscape value).toList := not_mem_htmlEscape value _ (by decide)
  have htext : ∀ s, (tagAttribute (key, some value)).toList ++ s =
      ' ' :: (key.toList ++ ['=']) ++ '"' :: ((htmlEscape value).toList ++ '"' :: s) := by
    simp [tagAttribute_some]
  rw [htext, cutEnd?_plain hplain, cutEnd?_quote (.inl rfl), cutEnd?_inside hvalue]
  simp only [Option.map_map, htext]
  rfl

theorem cutEnd?_writtenAttributes (h : ∀ a ∈ attributes, ∀ c ∈ a.1.toList, isNameChar c = true) (s : List Char) :
    cutEnd? none (writtenAttributes attributes ++ s) =
      (cutEnd? none s).map fun p => (writtenAttributes attributes ++ p.1, p.2) := by
  induction attributes with
  | nil => simp [writtenAttributes]
  | cons a attributes ih =>
    have hrest := ih fun a ha => h a (List.mem_cons_of_mem _ ha)
    obtain ⟨key, value | value⟩ := a
    · exact hrest
    · rw [writtenAttributes_cons, List.append_assoc, cutEnd?_tagAttribute (h _ List.mem_cons_self), hrest,
        Option.map_map]
      simp only [List.append_assoc]
      rfl

/-- The scanner of templates finds the end of a written tag where it was written. -/
theorem cutEnd?_tagInside (hname : ∀ c ∈ name.toList, isNameChar c = true)
    (h : ∀ a ∈ attributes, ∀ c ∈ a.1.toList, isNameChar c = true) (after : List Char) :
    cutEnd? none (tagInside name attributes selfClosing ++ '>' :: after) =
      some (tagInside name attributes selfClosing, after) := by
  have hmark : ∀ c ∈ closingMark selfClosing, c ≠ '"' ∧ c ≠ '\'' ∧ c ≠ '>' := by
    cases selfClosing <;> decide
  rw [tagInside, List.append_assoc, List.append_assoc, cutEnd?_plain fun c hc => isNameChar_plain (hname c hc),
    cutEnd?_writtenAttributes h, cutEnd?_plain hmark, cutEnd?_end]
  simp

end

/-- Values do not break out of the tag that they are written into. No escaped text holds one of
    `<`, `>` and the quotation marks, each `&` in it begins an entity, and decoded it is the text
    again. A tag, whatever the values of its attributes, is read as its name, the attributes that
    have a value, and its end; and from behind its first sign on the scanner of templates goes up to
    the last sign of the tag, whatever follows. -/
theorem values_stay_in_their_tag (hname : ∀ c ∈ name.toList, isNameChar c = true)
    (hkeys : ∀ a ∈ attributes, ∀ c ∈ a.1.toList, isNameChar c = true) (selfClosing : Bool) :
    (∀ s : String, (∀ c ∈ ['<', '>', '"', '\''], c ∉ (htmlEscape s).toList) ∧
      (∀ after, ('&' :: after) <:+ (htmlEscape s).toList → ∃ e ∈ entities, e.toList <+: '&' :: after) ∧
      unescapeHtml (htmlEscape s).toList = s.toList) ∧
    readTag? (tag name attributes selfClosing).toList = some (name, withValues attributes, selfClosing) ∧
    ∃ inside, (tag name attributes selfClosing).toList = '<' :: (inside ++ ['>']) ∧
      ∀ after, Template.Tag.cutEnd? none (inside ++ '>' :: after) = some (inside, after) :=
  ⟨fun s => ⟨not_mem_htmlEscape s, fun _ => entity_of_htmlEscape, unescapeHtml_htmlEscape s⟩,
    readTag?_tag hname hkeys, _, tag_toList, cutEnd?_tagInside hname hkeys⟩

/-- A value that would end its attribute and the tag, if it could. -/
theorem script_stays_in_its_value :
    let attributes := [("value", some "\"><script>'&lt;"), ("disabled", none)]
    (∀ c ∈ "input".toList, isNameChar c = true) ∧ (∀ a ∈ attributes, ∀ c ∈ a.1.toList, isNameChar c = true) ∧
    readTag? (tag "input" attributes true).toList = some ("input", [("value", "\"><script>'&lt;")], true) ∧
    ∃ inside, (tag "input" attributes true).toList = '<' :: (inside ++ ['>']) ∧
      Template.Tag.cutEnd? none (inside ++ '>' :: "</script>".toList) = some (inside, "</script>".toList) := by
  intro attributes
  have hname : ∀ c ∈ "input".toList, isNameChar c = true := by decide
  have hkeys : ∀ a ∈ attributes, ∀ c ∈ a.1.toList, isNameChar c = true := by decide
  obtain ⟨-, hread, inside, htext, hend⟩ := values_stay_in_their_tag hname hkeys true
  exact ⟨hname, hkeys, hread, inside, htext, hend _⟩

end PageServer.Text
