/-
  PageServer.Proofs.TagTexts — a tag is read back from any text that spells it.

  A tag is spelled with its word in any letter case, an inline tag with the name of its type, and with
  attributes: a key alone, or a key and a value in quotation marks that the value does not hold. Blanks
  stand between attributes, around equals signs and before the end as one likes, and one has to stand
  where nothing else ends a name (`Apart`). A slash before the end closes the tag in itself.

  Three readings go over that text: the end of the tag is looked for outside of the quotes
  (`cutEnd?_spelled`), the slash is taken off what stands before it (`cutSlash_spelled`), and what is left
  is cut into attributes (`readAttributes?_spelled`). They agree on what is quoted, so the tag is read as
  it was spelled, and the text after it is what is left (`tags_are_read_as_spelled`).
-/

import PageServer.Proofs.Rereading
import PageServer.Template.Tag

namespace PageServer.Template

/-! ## Names -/

/-- Something made of the characters of a key path's segments. -/
def IsIdentifier (s : String) : Prop := KeyPath.isSegment s.toList = true

instance (s : String) : Decidable (IsIdentifier s) := inferInstanceAs (Decidable (_ = true))

variable {s : String}

theorem IsIdentifier.ne (h : IsIdentifier s) : s.toList ≠ [] := by
  rw [IsIdentifier, KeyPath.isSegment, Bool.and_eq_true] at h
  simpa using h.1

theorem IsIdentifier.ne_empty (h : IsIdentifier s) : s ≠ "" := fun heq => h.ne (by rw [heq]; rfl)

theorem IsIdentifier.chars (h : IsIdentifier s) : ∀ c ∈ s.toList, KeyPath.isSegmentChar c = true := by
  rw [IsIdentifier, KeyPath.isSegment, Bool.and_eq_true] at h
  exact List.all_eq_true.mp h.2

theorem IsIdentifier.not_mem {c : Char} (h : IsIdentifier s) (hc : KeyPath.isSegmentChar c = false) :
    c ∉ s.toList := by
  intro hmem
  rw [h.chars c hmem] at hc
  cases hc

theorem IsIdentifier.not_blank (h : IsIdentifier s) : ∀ c ∈ s.toList, Text.isBlank c = false :=
  fun c hc => Binding.not_isBlank_of_wordChar (.inr (h.chars c hc))

/-- The characters of names neither end a tag nor are quotation marks. -/
theorem IsIdentifier.plain (h : IsIdentifier s) : ∀ c ∈ s.toList, c ≠ '"' ∧ c ≠ '\'' ∧ c ≠ '>' := by
  have hnot : ∀ c ∈ ['"', '\'', '>'], KeyPath.isSegmentChar c = false := by decide
  intro c hc
  refine ⟨?_, ?_, ?_⟩ <;>
  · rintro rfl
    exact h.not_mem (hnot _ (by decide)) hc

/-- Nor are they what ends a key. -/
theorem IsIdentifier.keyChars (h : IsIdentifier s) : ∀ c ∈ s.toList, Tag.isKeyChar c = true := by
  intro c hc
  have hne : c ≠ '=' := by
    rintro rfl
    exact h.not_mem (by decide) hc
  simp [Tag.isKeyChar, h.not_blank c hc, hne]

/-! ## Spelled tags -/

/-- A value in quotes, after an equals sign with blanks around it. -/
structure SpelledValue where
  before : List Char := []
  after : List Char := []
  quote : Char := '"'
  text : String

namespace SpelledValue

def chars (v : SpelledValue) : List Char :=
  v.before ++ '=' :: (v.after ++ v.quote :: (v.text.toList ++ [v.quote]))

structure Proper (v : SpelledValue) : Prop where
  before : Text.Gap v.before
  after : Text.Gap v.after
  quote : v.quote = '"' ∨ v.quote = '\''
  text : v.quote ∉ v.text.toList

instance (v : SpelledValue) : Decidable v.Proper :=
  decidable_of_iff
    ((∀ c ∈ v.before, Text.isBlank c = true) ∧ (∀ c ∈ v.after, Text.isBlank c = true) ∧
      (v.quote = '"' ∨ v.quote = '\'') ∧ v.quote ∉ v.text.toList)
    ⟨fun h => ⟨h.1, h.2.1, h.2.2.1, h.2.2.2⟩, fun h => ⟨h.before, h.after, h.quote, h.text⟩⟩

end SpelledValue

/-- An attribute after blanks; a flag has no value. -/
structure SpelledAttribute where
  gap : List Char := [' ']
  key : String
  value : Option SpelledValue

namespace SpelledAttribute

def valueChars : Option SpelledValue → List Char
  | none => []
  | some v => v.chars

def chars (a : SpelledAttribute) : List Char := a.gap ++ (a.key.toList ++ valueChars a.value)

/-- What is read of the attribute. -/
def read (a : SpelledAttribute) : String × Option String := (a.key, a.value.map (·.text))

/-- The value, which is empty for a flag. -/
def shown (a : SpelledAttribute) : String := a.read.2.getD ""

structure Proper (a : SpelledAttribute) : Prop where
  gap : Text.Gap a.gap
  key : IsIdentifier a.key
  value : ∀ v ∈ a.value, v.Proper

instance (a : SpelledAttribute) : Decidable a.Proper :=
  decidable_of_iff ((∀ c ∈ a.gap, Text.isBlank c = true) ∧ IsIdentifier a.key ∧ ∀ v ∈ a.value, v.Proper)
    ⟨fun h => ⟨h.1, h.2.1, h.2.2⟩, fun h => ⟨h.gap, h.key, h.value⟩⟩

end SpelledAttribute

def attributesChars (as : List SpelledAttribute) : List Char := as.flatMap SpelledAttribute.chars

/-- There are blanks before each attribute, but for one that follows a quotation mark, which may have
    none. -/
def Apart : (quoted : Bool) → List SpelledAttribute → Prop
  | _, [] => True
  | quoted, a :: as => (quoted = false → a.gap ≠ []) ∧ Apart a.value.isSome as

instance decidableApart : ∀ (quoted : Bool) (as : List SpelledAttribute), Decidable (Apart quoted as)
  | _, [] => isTrue trivial
  | quoted, a :: as =>
    have := decidableApart a.value.isSome as
    inferInstanceAs (Decidable ((quoted = false → a.gap ≠ []) ∧ Apart a.value.isSome as))

/-- What follows the name of a tag, up to its end. -/
structure Spelling where
  attributes : List SpelledAttribute
  gap : List Char := []
  /-- The blanks after a slash, if there is one. -/
  slash : Option (List Char) := none

namespace Spelling

def slashChars : Option (List Char) → List Char
  | none => []
  | some gap => '/' :: gap

/-- The text without the slash. -/
def inside (s : Spelling) : List Char := attributesChars s.attributes ++ s.gap

def chars (s : Spelling) : List Char := s.inside ++ slashChars s.slash

def selfClosing (s : Spelling) : Bool := s.slash.isSome

/-- The value of the first attribute called `name`, in any letter case; empty if there is none. -/
def name (s : Spelling) : String :=
  match s.attributes.find? (Text.asciiLower ·.key == "name") with
  | none => ""
  | some a => a.shown

structure Proper (s : Spelling) : Prop where
  attributes : ∀ a ∈ s.attributes, a.Proper
  apart : Apart false s.attributes
  gap : Text.Gap s.gap
  slash : ∀ gap ∈ s.slash, Text.Gap gap

instance (s : Spelling) : Decidable s.Proper :=
  decidable_of_iff
    ((∀ a ∈ s.attributes, a.Proper) ∧ Apart false s.attributes ∧ (∀ c ∈ s.gap, Text.isBlank c = true) ∧
      ∀ gap ∈ s.slash, ∀ c ∈ gap, Text.isBlank c = true)
    ⟨fun h => ⟨h.1, h.2.1, h.2.2.1, h.2.2.2⟩, fun h => ⟨h.attributes, h.apart, h.gap, h.slash⟩⟩

end Spelling

theorem attributesChars_cons (a : SpelledAttribute) (as : List SpelledAttribute) :
    attributesChars (a :: as) = a.chars ++ attributesChars as := List.flatMap_cons

namespace Tag

variable {a : SpelledAttribute} {as : List SpelledAttribute} {w inner after gap : List Char} {q : Char}

/-! ## The end of the tag -/

theorem cutEnd?_other {c : Char} (hquote : ¬(c = '"' ∨ c = '\'')) (hend : c ≠ '>') (s : List Char) :
    cutEnd? none (c :: s) = (cutEnd? none s).map fun p => (c :: p.1, p.2) := by
  rw [cutEnd?, if_neg hquote, if_neg hend]

theorem cutEnd?_quote (hq : q = '"' ∨ q = '\'') (s : List Char) :
    cutEnd? none (q :: s) = (cutEnd? (some q) s).map fun p => (q :: p.1, p.2) := by
  rw [cutEnd?, if_pos hq]

theorem cutEnd?_quoted (c : Char) (s : List Char) :
    cutEnd? (some q) (c :: s) = (cutEnd? (if c = q then none else some q) s).map fun p => (c :: p.1, p.2) := by
  rw [cutEnd?]

theorem cutEnd?_end (after : List Char) : cutEnd? none ('>' :: after) = some ([], after) := by
  rw [cutEnd?, if_neg (by decide), if_pos rfl]

theorem cutEnd?_plain (hw : ∀ c ∈ w, c ≠ '"' ∧ c ≠ '\'' ∧ c ≠ '>') (s : List Char) :
    cutEnd? none (w ++ s) = (cutEnd? none s).map fun p => (w ++ p.1, p.2) := by
  induction w with
  | nil => simp
  | cons c w ih =>
    obtain ⟨hdouble, hsingle, hend⟩ := hw c List.mem_cons_self
    rw [List.cons_append, cutEnd?_other (not_or.mpr ⟨hdouble, hsingle⟩) hend,
      ih fun c hc => hw c (List.mem_cons_of_mem _ hc), Option.map_map]
    rfl

theorem cutEnd?_inside (hq : q ∉ w) (s : List Char) :
    cutEnd? (some q) (w ++ q :: s) = (cutEnd? none s).map fun p => (w ++ q :: p.1, p.2) := by
  induction w with
  | nil =>
    rw [List.nil_append, cutEnd?_quoted, if_pos rfl]
    rfl
  | cons c w ih =>
    obtain ⟨hne, hw⟩ := not_or.mp (mt List.mem_cons.mpr hq)
    rw [List.cons_append, cutEnd?_quoted, if_neg (Ne.symm hne), ih hw, Option.map_map]
    rfl

theorem plain_of_gap (h : Text.Gap gap) : ∀ c ∈ gap, c ≠ '"' ∧ c ≠ '\'' ∧ c ≠ '>' := by
  intro c hc
  have hblank := h c hc
  refine ⟨?_, ?_, ?_⟩ <;>
  · rintro rfl
    exact absurd hblank (by decide)

/-- A quoted value does not end the tag. -/
theorem cutEnd?_attribute (h : a.Proper) (s : List Char) :
    cutEnd? none (a.chars ++ s) = (cutEnd? none s).map fun p => (a.chars ++ p.1, p.2) := by
  have hstart : ∀ c ∈ a.gap ++ a.key.toList, c ≠ '"' ∧ c ≠ '\'' ∧ c ≠ '>' :=
    List.forall_mem_append.mpr ⟨plain_of_gap h.gap, h.key.plain⟩
  cases hvalue : a.value with
  | none =>
    have hchars : a.chars = a.gap ++ a.key.toList := by
      simp [SpelledAttribute.chars, SpelledAttribute.valueChars, hvalue]
    rw [hchars, cutEnd?_plain hstart]
  | some v =>
    have hv := h.value v hvalue
    have hplain : ∀ c ∈ a.gap ++ a.key.toList ++ (v.before ++ '=' :: v.after), c ≠ '"' ∧ c ≠ '\'' ∧ c ≠ '>' := by
      refine List.forall_mem_append.mpr ⟨hstart, List.forall_mem_append.mpr ⟨plain_of_gap hv.before, ?_⟩⟩
      exact List.forall_mem_cons.mpr ⟨by decide, plain_of_gap hv.after⟩
    have hchars : ∀ s, a.chars ++ s = a.gap ++ a.key.toList ++ (v.before ++ '=' :: v.after) ++
        v.quote :: (v.text.toList ++ v.quote :: s) := by
      simp [SpelledAttribute.chars, SpelledAttribute.valueChars, hvalue, SpelledValue.chars]
    rw [hchars, cutEnd?_plain hplain, cutEnd?_quote hv.quote, cutEnd?_inside hv.text]
    simp only [Option.map_map, hchars]
    rfl

theorem cutEnd?_attributes (h : ∀ a ∈ as, a.Proper) (s : List Char) :
    cutEnd? none (attributesChars as ++ s) = (cutEnd? none s).map fun p => (attributesChars as ++ p.1, p.2) := by
  induction as with
  | nil => simp [attributesChars]
  | cons a as ih =>
    rw [attributesChars_cons, List.append_assoc, cutEnd?_attribute (h a List.mem_cons_self),
      ih fun a ha => h a (List.mem_cons_of_mem _ ha), Option.map_map]
    simp only [List.append_assoc]
    rfl

theorem cutEnd?_spelled {t : Spelling} (h : t.Proper) (after : List Char) :
    cutEnd? none (t.chars ++ '>' :: after) = some (t.chars, after) := by
  have hslash : ∀ c ∈ t.gap ++ Spelling.slashChars t.slash, c ≠ '"' ∧ c ≠ '\'' ∧ c ≠ '>' := by
    refine List.forall_mem_append.mpr ⟨plain_of_gap h.gap, ?_⟩
    cases hslash : t.slash with
    | none => exact nofun
    | some gap => exact List.forall_mem_cons.mpr ⟨by decide, plain_of_gap (h.slash gap hslash)⟩
  have hchars : t.chars ++ '>' :: after =
      attributesChars t.attributes ++ (t.gap ++ Spelling.slashChars t.slash ++ '>' :: after) := by
    simp [Spelling.chars, Spelling.inside]
  rw [hchars, cutEnd?_attributes h.attributes, cutEnd?_plain hslash, cutEnd?_end]
  simp [Spelling.chars, Spelling.inside]

/-! ## Attributes -/

theorem readAttributes?_step {s rest : List Char} {read : String × Option String} (hs : Text.trimStart s ≠ [])
    (h : readAttribute? (Text.trimStart s) = some (read, rest)) :
    readAttributes? s = (readAttributes? rest).map (read :: ·) := by
  rw [readAttributes?, if_neg (by simpa using hs)]
  split
  · simp_all
  · simp_all

theorem readAttributes?_gap (h : Text.Gap gap) : readAttributes? gap = some [] := by
  have htrim : Text.trimStart gap = [] := by
    have hgap := Text.trimStart_gap h []
    rwa [List.append_nil] at hgap
  rw [readAttributes?, if_pos (by rw [htrim]; rfl)]

theorem readAttributes?_trimStart (s : List Char) : readAttributes? (Text.trimStart s) = readAttributes? s := by
  rw [readAttributes?, readAttributes?, Text.trimStart_trimStart]

theorem isBlank_equals : Text.isBlank '=' = false := by decide

/-- A flag ends at a blank or at the end of the text, unless an equals sign comes next. -/
theorem readAttribute?_flag {key : String} {rest : List Char} (hkey : IsIdentifier key)
    (hstop : ∀ c ∈ rest.head?, Text.isBlank c = true) (hnext : (Text.trimStart rest).head? ≠ some '=') :
    readAttribute? (key.toList ++ rest) = some ((key, none), Text.trimStart rest) := by
  obtain ⟨htake, hdrop⟩ := Text.taken_append hkey.keyChars fun c hc => by simp [isKeyChar, hstop c hc]
  have hne : key.toList.isEmpty = false := by simpa using hkey.ne
  rw [readAttribute?, htake, hdrop]
  simp only [hne, Bool.false_eq_true, if_false, String.ofList_toList]
  split
  · rename_i r hr
    rw [hr] at hnext
    exact absurd rfl hnext
  · rfl

/-- A value is read up to the quotation mark that it began with. -/
theorem readAttribute?_value {key : String} {v : SpelledValue} (hkey : IsIdentifier key) (hv : v.Proper)
    (rest : List Char) :
    readAttribute? (key.toList ++ (v.chars ++ rest)) = some ((key, some v.text), rest) := by
  have hchars : v.chars ++ rest = v.before ++ '=' :: (v.after ++ v.quote :: (v.text.toList ++ v.quote :: rest)) := by
    simp [SpelledValue.chars]
  have hstop : ∀ c ∈ (v.chars ++ rest).head?, isKeyChar c = false := by
    intro c hc
    rw [hchars] at hc
    cases hbefore : v.before with
    | nil =>
      rw [hbefore] at hc
      cases hc
      decide
    | cons b before =>
      have hblank := hv.before b (by rw [hbefore]; exact List.mem_cons_self)
      rw [hbefore] at hc
      cases hc
      rw [isKeyChar, hblank]
      rfl
  have hquote : Text.isBlank v.quote = false := by
    rcases hv.quote with hq | hq <;> rw [hq] <;> decide
  have hvalue : readValue? (v.quote :: (v.text.toList ++ v.quote :: rest)) = some (v.text.toList, rest) := by
    rw [readValue?, if_pos hv.quote, Text.cut?_eq_some hv.text]
  obtain ⟨htake, hdrop⟩ := Text.taken_append hkey.keyChars hstop
  have hne : key.toList.isEmpty = false := by simpa using hkey.ne
  rw [readAttribute?, htake, hdrop, hchars, Text.trimStart_gap hv.before, Text.trimStart_eq isBlank_equals]
  simp only [hne, Bool.false_eq_true, if_false, Text.trimStart_gap hv.after, Text.trimStart_eq hquote, hvalue,
    Option.map_some, String.ofList_toList]

theorem trimStart_identifier {key : String} (h : IsIdentifier key) (s : List Char) :
    Text.trimStart (key.toList ++ s) = key.toList ++ s := by
  obtain ⟨c, k, hcons⟩ := List.exists_cons_of_ne_nil h.ne
  rw [hcons, List.cons_append, Text.trimStart_eq (h.not_blank c (by rw [hcons]; exact List.mem_cons_self))]

/-- What follows a flag begins with a blank, if with anything, and no value is found behind the blanks. -/
theorem after_flag (h : ∀ a ∈ as, a.Proper) (hapart : Apart false as) (hgap : Text.Gap gap) :
    (∀ c ∈ (attributesChars as ++ gap).head?, Text.isBlank c = true) ∧
      (Text.trimStart (attributesChars as ++ gap)).head? ≠ some '=' := by
  cases as with
  | nil =>
    have htrim := Text.trimStart_gap hgap []
    rw [List.append_nil] at htrim
    refine ⟨fun c hc => hgap c (List.mem_of_mem_head? hc), ?_⟩
    rw [attributesChars, List.flatMap_nil, List.nil_append, htrim]
    simp [Text.trimStart]
  | cons a as =>
    have ha := h a List.mem_cons_self
    obtain ⟨b, blanks, hblanks⟩ := List.exists_cons_of_ne_nil (hapart.1 rfl)
    obtain ⟨k, key, hkey⟩ := List.exists_cons_of_ne_nil ha.key.ne
    rw [attributesChars_cons, SpelledAttribute.chars, List.append_assoc, List.append_assoc, List.append_assoc]
    constructor
    · intro c hc
      rw [hblanks] at hc
      cases hc
      exact ha.gap b (by rw [hblanks]; exact List.mem_cons_self)
    · rw [Text.trimStart_gap ha.gap, trimStart_identifier ha.key, hkey]
      intro heq
      cases heq
      exact ha.key.not_mem (c := '=') (by decide) (by rw [hkey]; exact List.mem_cons_self)

/-- Attributes are read in their order. -/
theorem readAttributes?_attributes {quoted : Bool} (h : ∀ a ∈ as, a.Proper) (hapart : Apart quoted as)
    (hgap : Text.Gap gap) : readAttributes? (attributesChars as ++ gap) = some (as.map SpelledAttribute.read) := by
  induction as generalizing quoted with
  | nil => exact readAttributes?_gap hgap
  | cons a as ih =>
    have ha := h a List.mem_cons_self
    have has : ∀ a ∈ as, a.Proper := fun a ha => h a (List.mem_cons_of_mem _ ha)
    have hrest := ih has hapart.2
    have hstart : Text.trimStart (attributesChars (a :: as) ++ gap) =
        a.key.toList ++ (SpelledAttribute.valueChars a.value ++ (attributesChars as ++ gap)) := by
      rw [attributesChars_cons, SpelledAttribute.chars, List.append_assoc, List.append_assoc, List.append_assoc,
        Text.trimStart_gap ha.gap, trimStart_identifier ha.key]
    have hne : Text.trimStart (attributesChars (a :: as) ++ gap) ≠ [] := by
      rw [hstart]
      intro hnil
      exact ha.key.ne (List.append_eq_nil_iff.mp hnil).1
    cases hvalue : a.value with
    | none =>
      have hflag : Apart false as := by
        have hlater := hapart.2
        rwa [hvalue] at hlater
      obtain ⟨hstop, hnext⟩ := after_flag has hflag hgap
      have hread := readAttribute?_flag ha.key hstop hnext
      rw [hvalue, SpelledAttribute.valueChars, List.nil_append] at hstart
      rw [← hstart] at hread
      rw [readAttributes?_step hne hread, readAttributes?_trimStart, hrest, List.map_cons, SpelledAttribute.read, hvalue]
      rfl
    | some v =>
      have hread := readAttribute?_value ha.key (ha.value v hvalue) (attributesChars as ++ gap)
      rw [hvalue, SpelledAttribute.valueChars] at hstart
      rw [← hstart] at hread
      rw [readAttributes?_step hne hread, hrest, List.map_cons, SpelledAttribute.read, hvalue]
      rfl

theorem readAttributes?_spelled {t : Spelling} (h : t.Proper) :
    readAttributes? t.inside = some (t.attributes.map SpelledAttribute.read) :=
  readAttributes?_attributes h.attributes h.apart h.gap

/-! ## The slash -/

/-- The text ends in something that is neither a blank nor a slash. -/
def Solid (w : List Char) : Prop := ∃ front c, w = front ++ [c] ∧ Text.isBlank c = false ∧ c ≠ '/'

theorem Solid.prepend (h : Solid w) (front : List Char) : Solid (front ++ w) := by
  obtain ⟨w', c, rfl, hblank, hslash⟩ := h
  exact ⟨front ++ w', c, (List.append_assoc _ _ _).symm, hblank, hslash⟩

theorem solid_identifier {key : String} (h : IsIdentifier key) : Solid key.toList := by
  refine ⟨_, _, (List.dropLast_append_getLast h.ne).symm, h.not_blank _ (List.getLast_mem h.ne), ?_⟩
  intro heq
  exact h.not_mem (c := '/') (by decide) (heq ▸ List.getLast_mem h.ne)

theorem solid_attribute (h : a.Proper) : Solid a.chars := by
  cases hvalue : a.value with
  | none =>
    have hchars : a.chars = a.gap ++ a.key.toList := by
      simp [SpelledAttribute.chars, SpelledAttribute.valueChars, hvalue]
    rw [hchars]
    exact (solid_identifier h.key).prepend _
  | some v =>
    refine ⟨a.gap ++ (a.key.toList ++ (v.before ++ '=' :: (v.after ++ v.quote :: v.text.toList))), v.quote, ?_, ?_⟩
    · simp [SpelledAttribute.chars, SpelledAttribute.valueChars, hvalue, SpelledValue.chars]
    · rcases (h.value v hvalue).quote with hq | hq <;> rw [hq] <;> decide

theorem solid_attributes (h : ∀ a ∈ as, a.Proper) (hw : Solid w) : Solid (w ++ attributesChars as) := by
  induction as generalizing w with
  | nil => simpa [attributesChars] using hw
  | cons a as ih =>
    rw [attributesChars_cons, ← List.append_assoc]
    exact ih (fun a ha => h a (List.mem_cons_of_mem _ ha)) ((solid_attribute (h a List.mem_cons_self)).prepend w)

theorem trimEnd_gap {c : Char} (hc : Text.isBlank c = false) (hgap : Text.Gap gap) (front : List Char) :
    Text.trimEnd (front ++ c :: gap) = front ++ [c] := by
  have hreverse : (front ++ c :: gap).reverse = gap.reverse ++ c :: front.reverse := by simp
  have hblanks : ∀ b ∈ gap.reverse, Text.isBlank b = true := fun b hb => hgap b (List.mem_reverse.mp hb)
  unfold Text.trimEnd Text.dropEndWhile
  rw [hreverse, List.dropWhile_append_of_pos hblanks, List.dropWhile_cons_of_neg (by rw [hc]; decide)]
  simp

theorem cutSlash_solid (hw : Solid w) (hgap : Text.Gap gap) : cutSlash (w ++ gap) = (w ++ gap, false) := by
  obtain ⟨front, c, rfl, hblank, hslash⟩ := hw
  rw [List.append_assoc, List.singleton_append]
  unfold cutSlash
  simp only [trimEnd_gap hblank hgap, List.getLast?_concat]
  rw [if_neg (by simpa using hslash)]

/-- A slash is taken off if it stands last, and only then. -/
theorem cutSlash_spelled {t : Spelling} (hw : Solid w) (h : t.Proper) :
    cutSlash (w ++ t.chars) = (w ++ t.inside, t.selfClosing) := by
  cases hslash : t.slash with
  | none =>
    have hchars : t.chars = t.inside := by simp [Spelling.chars, Spelling.slashChars, hslash]
    rw [hchars, Spelling.selfClosing, hslash, Spelling.inside, ← List.append_assoc]
    exact cutSlash_solid (solid_attributes h.attributes hw) h.gap
  | some gap =>
    have hchars : w ++ t.chars = w ++ t.inside ++ '/' :: gap := by
      simp [Spelling.chars, Spelling.slashChars, hslash]
    unfold cutSlash
    simp only [hchars, trimEnd_gap (show Text.isBlank '/' = false by decide) (h.slash gap hslash), List.getLast?_concat]
    rw [if_pos trivial, List.dropLast_concat, Spelling.selfClosing, hslash]
    rfl

/-! ## Whole tags -/

section Words

variable {word : List Char} (hw : w.map Char.toLower = word)
include hw

theorem dropWord?_spelled (r : List Char) : dropWord? word (w ++ r) = some r := by
  have hlength : word.length = w.length := by rw [← hw, List.length_map]
  rw [dropWord?, hlength, List.take_left, if_pos hw, List.drop_left]

theorem dropWord?_eq_none {word' : List Char} {i : Nat} {c c' : Char} (hc : word[i]? = some c)
    (hc' : word'[i]? = some c') (hne : c ≠ c') (r : List Char) : dropWord? word' (w ++ r) = none := by
  rw [dropWord?, if_neg]
  intro h
  have hi : i < word.length := (List.getElem?_eq_some_iff.mp hc).1
  have hi' : i < word'.length := (List.getElem?_eq_some_iff.mp hc').1
  rw [← hw, List.length_map] at hi
  rw [← h, List.getElem?_map, List.getElem?_take_of_lt hi', List.getElem?_append_left hi, ← List.getElem?_map, hw, hc] at hc'
  exact hne (Option.some.inj hc')

theorem plain_of_word (hword : ∀ c ∈ ['"', '\'', '>'], c.toLower ∉ word) : ∀ c ∈ w, c ≠ '"' ∧ c ≠ '\'' ∧ c ≠ '>' := by
  intro c hc
  have hmem : c.toLower ∈ word := hw ▸ List.mem_map_of_mem hc
  refine ⟨?_, ?_, ?_⟩ <;>
  · rintro rfl
    exact hword _ (by decide) hmem

/-- A word that does not begin with a slash is no mark of a closing tag. -/
theorem readMark_word (hslash : word.head? ≠ some '/') (hne : word ≠ []) (closing : Bool) (s : List Char) :
    readMark (mark closing ++ (w ++ s)) = (closing, w ++ s) := by
  cases closing with
  | true => rfl
  | false =>
    cases w with
    | nil => exact absurd hw.symm hne
    | cons c w =>
      have hc : c ≠ '/' := by
        rintro rfl
        rw [← hw] at hslash
        exact hslash rfl
      simp [mark, readMark, hc]

end Words

/-- The inline tag that a text in angle brackets is. -/
theorem read?_inline (closing : Bool) {s inner' : List Char} {selfClosing : Bool} (hw : w.map Char.toLower = inlineMark)
    (hend : cutEnd? none s = some (inner, after)) (hslash : cutSlash (w ++ inner) = (w ++ inner', selfClosing)) :
    read? ('<' :: (mark closing ++ (w ++ s))) =
      (readInline (String.ofList ('<' :: (mark closing ++ (w ++ inner) ++ ['>']))) closing selfClosing inner').map
        fun t => some (t, after) := by
  have hlength : inlineMark.length = w.length := by rw [← hw, List.length_map]
  -- the two words differ in their third character
  have hnamed : dropWord? webobject (w ++ s) = none :=
    dropWord?_eq_none hw (show inlineMark[2]? = some ':' by decide)
      (show webobject[2]? = some 'b' by decide) (by decide) s
  unfold read?
  simp only [readMark_word hw (by decide) (by decide) closing s, dropWord?_spelled hw, hnamed,
    cutEnd?_plain (plain_of_word hw (by decide)), hend, Option.map_some, hslash, hlength, List.drop_left]
  rfl

/-- The same for the other tags. -/
theorem read?_named (closing : Bool) {s inner' : List Char} {selfClosing : Bool} (hw : w.map Char.toLower = webobject)
    (hname : isNameEnd s = true) (hend : cutEnd? none s = some (inner, after))
    (hslash : cutSlash (w ++ inner) = (w ++ inner', selfClosing)) :
    read? ('<' :: (mark closing ++ (w ++ s))) =
      (readNamed (String.ofList ('<' :: (mark closing ++ (w ++ inner) ++ ['>']))) closing selfClosing inner').map
        fun t => some (t, after) := by
  have hlength : webobject.length = w.length := by rw [← hw, List.length_map]
  unfold read?
  simp only [readMark_word hw (by decide) (by decide) closing s, dropWord?_spelled hw, Option.map_some, hname,
    cutEnd?_plain (plain_of_word hw (by decide)), hend, hslash, hlength, List.drop_left]
  rfl

/-- A letter is no blank, whatever its case. -/
theorem not_blank_of_toLower {c : Char} (h : Text.isBlank c.toLower = false) : Text.isBlank c = false := by
  by_cases hupper : c.isUpper = true
  · simp only [Char.isUpper, decide_eq_true_eq, UInt32.le_iff_toNat_le] at hupper
    obtain ⟨hlow, hhigh⟩ := hupper
    change 65 ≤ c.toNat at hlow
    change c.toNat ≤ 90 at hhigh
    simp only [Text.isBlank, Bool.or_eq_false_iff, Bool.and_eq_false_iff, decide_eq_false_iff_not, beq_eq_false_iff_ne]
    omega
  · rwa [Char.toLower, dif_neg] at h
    simpa [Char.isUpper] using hupper

theorem solid_of_word {front : List Char} {c : Char} (hw : w.map Char.toLower = front ++ [c])
    (hblank : Text.isBlank c = false) (hslash : c ≠ '/') : Solid w := by
  obtain ⟨w', rest, rfl, -, hrest⟩ := List.map_eq_append_iff.mp hw
  obtain ⟨c', rfl, hc'⟩ := List.map_eq_singleton_iff.mp hrest
  refine ⟨w', c', rfl, not_blank_of_toLower (by rw [hc', hblank]), ?_⟩
  rintro rfl
  exact hslash hc'.symm

variable {t : Spelling} {typeName : String}

theorem head_inside (h : t.Proper) : ∀ c ∈ t.inside.head?, Text.isBlank c = true :=
  (after_flag h.attributes h.apart h.gap).1

theorem isNameEnd_spelled (h : t.Proper) (after : List Char) : isNameEnd (t.chars ++ '>' :: after) = true := by
  cases hinside : t.inside with
  | nil => cases hslash : t.slash <;> simp [Spelling.chars, Spelling.slashChars, hinside, hslash, isNameEnd]
  | cons c inside =>
    have hblank := head_inside h c (by rw [hinside]; rfl)
    simp [Spelling.chars, hinside, isNameEnd, hblank]

theorem read?_spelledInline (hw : w.map Char.toLower = inlineMark) (hname : IsIdentifier typeName) (h : t.Proper)
    (after : List Char) :
    read? ('<' :: (w ++ (typeName.toList ++ (t.chars ++ '>' :: after)))) =
      .ok (some (.openInline typeName (t.attributes.map fun a => (a.key, a.shown)) t.selfClosing, after)) := by
  have hend : cutEnd? none (typeName.toList ++ (t.chars ++ '>' :: after)) = some (typeName.toList ++ t.chars, after) := by
    rw [cutEnd?_plain hname.plain, cutEnd?_spelled h]
    rfl
  have hslash : cutSlash (w ++ (typeName.toList ++ t.chars)) = (w ++ (typeName.toList ++ t.inside), t.selfClosing) := by
    rw [← List.append_assoc, ← List.append_assoc]
    exact cutSlash_spelled ((solid_identifier hname).prepend w) h
  obtain ⟨htake, hdrop⟩ := Text.taken_append (p := (!Text.isBlank ·)) (fun c hc => by simp [hname.not_blank c hc])
    fun c hc => by simp [head_inside h c hc]
  have hread := read?_inline false hw hend hslash
  rw [mark, if_neg (by decide), List.nil_append] at hread
  rw [hread, readInline, htake, hdrop, readAttributes?_spelled h]
  simp only [String.ofList_toList, if_neg hname.ne_empty, Bool.false_eq_true, if_false, List.map_map]
  rfl

/-- What is found as the name of the tag. -/
theorem nameAttribute?_spelled (t : Spelling) :
    nameAttribute? (t.attributes.map SpelledAttribute.read) = if t.name = "" then none else some t.name := by
  have hfind : (t.attributes.map SpelledAttribute.read).find? (Text.asciiLower ·.1 == "name") =
      (t.attributes.find? (Text.asciiLower ·.key == "name")).map SpelledAttribute.read := List.find?_map
  rw [nameAttribute?, hfind, Spelling.name]
  cases t.attributes.find? (Text.asciiLower ·.key == "name") with
  | none => rfl
  | some a => cases hvalue : a.value <;> simp [SpelledAttribute.shown, SpelledAttribute.read, hvalue]

theorem read?_spelledNamed (hw : w.map Char.toLower = webobject) (h : t.Proper) (after : List Char) :
    read? ('<' :: (w ++ (t.chars ++ '>' :: after))) =
      if t.name = "" then .error (.missingName (String.ofList ('<' :: (w ++ (t.chars ++ ['>'])))))
      else .ok (some (.openNamed t.name t.selfClosing, after)) := by
  have hsolid : Solid w := solid_of_word (hw.trans (show webobject = "webobjec".toList ++ ['t'] by decide))
    (by decide) (by decide)
  have hread := read?_named false hw (isNameEnd_spelled h after) (cutEnd?_spelled h after) (cutSlash_spelled hsolid h)
  rw [mark, if_neg (by decide), List.nil_append, List.nil_append] at hread
  rw [hread, readNamed, if_neg (by decide), readAttributes?_spelled h]
  simp only [nameAttribute?_spelled]
  by_cases hname : t.name = ""
  · simp only [if_pos hname, List.append_assoc]
    rfl
  · simp only [if_neg hname]
    rfl

end Tag

/-- Tags are read as they were spelled. An inline tag is read as its type, its attributes in their order,
    flags with an empty value, and its slash. Any other one is read as the value of the first attribute
    called `name` and its slash, or refused if there is no such value. In both cases the text after the
    tag is all that is left. -/
theorem tags_are_read_as_spelled {t : Spelling} (h : t.Proper) (after : List Char) :
    (∀ {w : List Char} {typeName : String}, w.map Char.toLower = Tag.inlineMark → IsIdentifier typeName →
      Tag.read? ('<' :: (w ++ (typeName.toList ++ (t.chars ++ '>' :: after)))) =
        .ok (some (.openInline typeName (t.attributes.map fun a => (a.key, a.shown)) t.selfClosing, after))) ∧
    ∀ {w : List Char}, w.map Char.toLower = Tag.webobject →
      Tag.read? ('<' :: (w ++ (t.chars ++ '>' :: after))) =
        if t.name = "" then .error (.missingName (String.ofList ('<' :: (w ++ (t.chars ++ ['>'])))))
        else .ok (some (.openNamed t.name t.selfClosing, after)) :=
  ⟨fun hw hname => Tag.read?_spelledInline hw hname h after, fun hw => Tag.read?_spelledNamed hw h after⟩

/-- A flag, a value that holds what ends tags, and one that ends in a slash and is followed at once by the
    next attribute. -/
theorem quoted_signs_end_no_tag :
    let t : Spelling := {
      attributes := [
        { key := "disabled", value := none },
        { gap := ['\n'], key := "href", value := some { before := [' '], after := [' '], quote := '\'', text := "a>\"b\"=/" } },
        { gap := [], key := "Name", value := some { text := "it's/" } }]
      gap := [' ']
      slash := some [] }
    t.Proper ∧
    Tag.read? "<wo:Link disabled\nhref = 'a>\"b\"=/'Name=\"it's/\" />text".toList =
      .ok (some (.openInline "Link" [("disabled", ""), ("href", "a>\"b\"=/"), ("Name", "it's/")] true, "text".toList)) ∧
    Tag.read? "<WebObject disabled\nhref = 'a>\"b\"=/'Name=\"it's/\" />text".toList =
      .ok (some (.openNamed "it's/" true, "text".toList)) := by
  intro t
  have ht : t.Proper := by decide +kernel
  obtain ⟨hinline, hnamed⟩ := tags_are_read_as_spelled ht "text".toList
  have hlink := hinline (show "wo:".toList.map Char.toLower = Tag.inlineMark by decide +kernel)
    (show IsIdentifier "Link" by decide +kernel)
  have hobject := hnamed (show "WebObject".toList.map Char.toLower = Tag.webobject by decide +kernel)
  refine ⟨ht, ?_, ?_⟩
  · rw [show "<wo:Link disabled\nhref = 'a>\"b\"=/'Name=\"it's/\" />text".toList =
      '<' :: ("wo:".toList ++ ("Link".toList ++ (t.chars ++ '>' :: "text".toList))) by decide +kernel, hlink]
    rfl
  · rw [show "<WebObject disabled\nhref = 'a>\"b\"=/'Name=\"it's/\" />text".toList =
      '<' :: ("WebObject".toList ++ (t.chars ++ '>' :: "text".toList)) by decide +kernel, hobject]
    rw [if_neg (by decide +kernel), show t.name = "it's/" by decide +kernel]
    rfl

end PageServer.Template
