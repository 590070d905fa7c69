/-
  PageServer.Proofs.Tags — the tags around a text, written in one way.

  Here an attribute is written after a space, with its key, an equals sign, and its value in quotes that
  the value does not hold (`Attribute`). That is one way to spell it (`Attribute.spelled`), so the tags
  that open and close around a text without `<` are read as such, and the text stays as it is
  (`lex_enclosed`).
-/

import PageServer.Proofs.Nesting
import PageServer.Proofs.TagTexts

namespace PageServer.Template

/-! ## Attributes -/

/-- An attribute with the quotation mark that its value is written in. -/
structure Attribute where
  key : String
  value : String
  quote : Char

namespace Attribute

def text (a : Attribute) : List Char :=
  ' ' :: (a.key.toList ++ '=' :: a.quote :: (a.value.toList ++ [a.quote]))

/-- The attribute may be written so. -/
structure Quoted (a : Attribute) : Prop where
  key : IsIdentifier a.key
  quote : a.quote = '"' ∨ a.quote = '\''
  value : a.quote ∉ a.value.toList

instance (a : Attribute) : Decidable a.Quoted :=
  decidable_of_iff (IsIdentifier a.key ∧ (a.quote = '"' ∨ a.quote = '\'') ∧ a.quote ∉ a.value.toList)
    ⟨fun h => ⟨h.1, h.2.1, h.2.2⟩, fun h => ⟨h.key, h.quote, h.value⟩⟩

end Attribute

def attributesText (as : List Attribute) : List Char := as.flatMap Attribute.text

/-- The spelling of the attribute. -/
def Attribute.spelled (a : Attribute) : SpelledAttribute :=
  { key := a.key, value := some { quote := a.quote, text := a.value } }

theorem Attribute.Quoted.proper {a : Attribute} (h : a.Quoted) : a.spelled.Proper where
  gap := List.forall_mem_singleton.mpr (by decide)
  key := h.key
  value := by
    rintro v ⟨⟩
    exact ⟨nofun, nofun, h.quote, h.value⟩

variable {as : List Attribute}

/-- The spelling of a tag with these attributes. -/
def spelling (as : List Attribute) : Spelling := { attributes := as.map Attribute.spelled }

theorem chars_spelling (as : List Attribute) : (spelling as).chars = attributesText as := by
  have hattributes : attributesChars (as.map Attribute.spelled) = attributesText as := by
    rw [attributesChars, List.flatMap_map]
    rfl
  rw [Spelling.chars, Spelling.inside, spelling, hattributes]
  exact (List.append_nil _).trans (List.append_nil _)

theorem apart_spelled {quoted : Bool} (as : List Attribute) : Apart quoted (as.map Attribute.spelled) := by
  induction as generalizing quoted with
  | nil => trivial
  | cons a as ih => exact ⟨fun _ => List.cons_ne_nil _ _, ih⟩

theorem proper_spelling (h : ∀ a ∈ as, a.Quoted) : (spelling as).Proper where
  attributes := by
    intro a ha
    obtain ⟨a', ha', rfl⟩ := List.mem_map.mp ha
    exact (h a' ha').proper
  apart := apart_spelled as
  gap := nofun
  slash := nofun

namespace Tag

/-! ## Whole tags -/

variable {name typeName : String}

def openInlineText (typeName : String) (as : List Attribute) : List Char :=
  '<' :: (inlineMark ++ (typeName.toList ++ (attributesText as ++ ['>'])))

def closeInlineText (typeName : String) : List Char := '<' :: '/' :: (inlineMark ++ (typeName.toList ++ ['>']))

/-- How a tag names its declaration. -/
def nameAttribute (name : String) : Attribute := ⟨"name", name, '"'⟩

theorem quoted_nameAttribute {name : String} (h : IsIdentifier name) : (nameAttribute name).Quoted where
  key := show IsIdentifier "name" by decide
  quote := .inl rfl
  value := h.not_mem (c := '"') (by decide)

def openNamedText (name : String) : List Char :=
  '<' :: (webobject ++ (attributesText [nameAttribute name] ++ ['>']))

def closeNamedText : List Char := '<' :: '/' :: (webobject ++ ['>'])

theorem lower_inlineMark : inlineMark.map Char.toLower = inlineMark := by decide

theorem lower_webobject : webobject.map Char.toLower = webobject := by decide

theorem read?_openInline (hname : IsIdentifier typeName) (h : ∀ a ∈ as, a.Quoted) (after : List Char) :
    read? (openInlineText typeName as ++ after) =
      .ok (some (.openInline typeName (as.map fun a => (a.key, a.value)) false, after)) := by
  have htext : openInlineText typeName as ++ after =
      '<' :: (inlineMark ++ (typeName.toList ++ ((spelling as).chars ++ '>' :: after))) := by
    simp [openInlineText, chars_spelling]
  rw [htext, read?_spelledInline lower_inlineMark hname (proper_spelling h), spelling, List.map_map]
  rfl

theorem read?_closeInline (hname : IsIdentifier typeName) (after : List Char) :
    read? (closeInlineText typeName ++ after) = .ok (some (.closeInline typeName, after)) := by
  have hend : cutEnd? none (typeName.toList ++ '>' :: after) = some (typeName.toList, after) := by
    rw [cutEnd?_plain hname.plain, cutEnd?_end]
    simp
  have hslash : cutSlash (inlineMark ++ typeName.toList) = (inlineMark ++ typeName.toList, false) := by
    have hsolid := cutSlash_solid ((solid_identifier hname).prepend inlineMark) Text.gap_nil
    rwa [List.append_nil] at hsolid
  have htake : typeName.toList.takeWhile (!Text.isBlank ·) = typeName.toList :=
    List.takeWhile_eq_self_iff.mpr fun c hc => by simp [hname.not_blank c hc]
  have htext : closeInlineText typeName ++ after =
      '<' :: (mark true ++ (inlineMark ++ (typeName.toList ++ '>' :: after))) := by
    simp [closeInlineText, mark]
  rw [htext, read?_inline true lower_inlineMark hend hslash, readInline, htake]
  simp only [String.ofList_toList, if_neg hname.ne_empty, if_true]
  rfl

theorem read?_openNamed (hname : IsIdentifier name) (after : List Char) :
    read? (openNamedText name ++ after) = .ok (some (.openNamed name false, after)) := by
  have hquoted : ∀ a ∈ [nameAttribute name], a.Quoted := List.forall_mem_singleton.mpr (quoted_nameAttribute hname)
  have htext : openNamedText name ++ after =
      '<' :: (webobject ++ ((spelling [nameAttribute name]).chars ++ '>' :: after)) := by
    simp [openNamedText, chars_spelling]
  have hkey : (Text.asciiLower "name" == "name") = true := by decide +kernel
  have hfound : (spelling [nameAttribute name]).name = name := by
    simp [Spelling.name, spelling, Attribute.spelled, nameAttribute, hkey, SpelledAttribute.shown,
      SpelledAttribute.read]
  rw [htext, read?_spelledNamed lower_webobject (proper_spelling hquoted), hfound, if_neg hname.ne_empty]
  rfl

theorem read?_closeNamed (after : List Char) :
    read? (closeNamedText ++ after) = .ok (some (.closeNamed, after)) := by
  have htext : closeNamedText ++ after = '<' :: (mark true ++ (webobject ++ '>' :: after)) := by
    simp [closeNamedText, mark]
  have hslash : cutSlash (webobject ++ []) = (webobject ++ [], false) := by decide
  rw [htext, read?_named true lower_webobject rfl (cutEnd?_end after) hslash]
  rfl

end Tag

/-! ## A text between two tags -/

variable {opening closing : Tag} {start stop text : List Char}

theorem lex_text (h : '<' ∉ text) (s : List Char) : lex (text ++ s) = (lex s).map (text.map .char ++ ·) := by
  induction text with
  | nil =>
    rw [List.nil_append]
    rcases lex s with e | ts <;> rfl
  | cons c text ih =>
    obtain ⟨hc, htext⟩ := not_or.mp (mt List.mem_cons.mpr h)
    have hread : Tag.read? (c :: (text ++ s)) = .ok none := by
      rw [Tag.read?]
      rintro r ⟨⟩
      exact hc rfl
    rw [List.cons_append, lex_char hread, ih htext, Declarations.map_map]
    rfl

/-- Nothing is read in the text between the tags. -/
theorem lex_enclosed (hopen : ∀ after, Tag.read? (start ++ after) = .ok (some (opening, after)))
    (hclose : ∀ after, Tag.read? (stop ++ after) = .ok (some (closing, after))) (htext : '<' ∉ text) :
    ∃ source source', lex (start ++ (text ++ stop)) =
      .ok (.tag opening source :: (text.map .char ++ [.tag closing source'])) := by
  have hlex : ∀ {s after : List Char} {t : Tag}, Tag.read? s = .ok (some (t, after)) →
      ∃ source, lex s = (lex after).map (.tag t source :: ·) := by
    intro s after t hread
    cases s with
    | nil => cases hread
    | cons c rest =>
      obtain ⟨source, -, hsource⟩ := lex_tag hread
      exact ⟨source, hsource⟩
  obtain ⟨source, hsource⟩ := hlex (hopen (text ++ stop))
  obtain ⟨source', hsource'⟩ := hlex (hclose [])
  refine ⟨source, source', ?_⟩
  rw [List.append_nil, lex] at hsource'
  rw [hsource, lex_text htext, hsource']
  rfl

end PageServer.Template
