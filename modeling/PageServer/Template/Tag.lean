/-
  PageServer.Template.Tag — the dynamic tags of a template.

      <webobject name="Tag">content</webobject>   (or <webobject name=Tag/>)
      <wo:Type key="constant" other="$key.path" third="~helper(x)">...</wo:Type>

  A tag ends at the first `>` outside of quoted attribute values; a slash before it closes the
  tag in itself. All other markup is text.
-/

import PageServer.Text.Blank
import PageServer.Text.Case
import PageServer.Text.Pieces
import PageServer.Text.Quoted

namespace PageServer.Template

inductive MarkupError where
  | missingName (tag : String)
  | unterminatedTag (start : String)
  | unexpectedClosingTag (tag : String)
  | mismatchedClosingTag (expected found : String)
  | unclosedTag (tag : String)
  | malformedTag (tag : String)
  deriving DecidableEq, Repr

def MarkupError.message : MarkupError → String
  | .missingName t => "webobject tag without name attribute: " ++ Text.quote t
  | .unterminatedTag t => "unterminated tag starting with " ++ Text.quote t
  | .unexpectedClosingTag t => "closing tag " ++ Text.quote t ++ " without opening tag"
  | .mismatchedClosingTag e f =>
    "closing tag " ++ Text.quote f ++ " does not match opening tag " ++ Text.quote e
  | .unclosedTag t => "tag " ++ Text.quote t ++ " is never closed"
  | .malformedTag t => "malformed attributes in tag " ++ Text.quote t

instance : ToString MarkupError := ⟨MarkupError.message⟩

inductive Tag where
  /-- A tag that names a declaration. -/
  | openNamed (name : String) (selfClosing : Bool)
  | closeNamed
  /-- A tag that gives the type and the bindings itself. -/
  | openInline (typeName : String) (attributes : List (String × String)) (selfClosing : Bool)
  | closeInline (typeName : String)
  deriving DecidableEq, Repr

namespace Tag

/-! ## The end of a tag -/

/-- What `s` holds before the end of the tag it lies in, and after it; `quote` is the quotation
    mark of the attribute value that `s` begins in, if it does. -/
def cutEnd? (quote : Option Char) : List Char → Option (List Char × List Char)
  | [] => none
  | c :: r =>
    let go (q : Option Char) := (cutEnd? q r).map fun (inner, after) => (c :: inner, after)
    match quote with
    | some q => go (if c = q then none else some q)
    | none =>
      if c = '"' ∨ c = '\'' then go (some c)
      else if c = '>' then some ([], r)
      else go none

theorem cutEnd?_length {q : Option Char} {s inner after : List Char}
    (h : cutEnd? q s = some (inner, after)) : after.length < s.length := by
  induction s generalizing q inner with
  | nil => simp [cutEnd?] at h
  | cons c r ih =>
    have step : ∀ q', ((cutEnd? q' r).map fun (i, a) => (c :: i, a)) = some (inner, after) →
        after.length < (c :: r).length := by
      intro q' h'
      simp only [Option.map_eq_some_iff, Prod.mk.injEq, Prod.exists] at h'
      obtain ⟨i, a, hi, -, rfl⟩ := h'
      have := ih hi
      simp; omega
    simp only [cutEnd?] at h
    split at h
    · exact step _ h
    · split at h
      · exact step _ h
      · split at h
        · cases h; simp
        · exact step _ h

/-! ## Attributes -/

/-- An attribute value and the text after it. -/
def readValue? : List Char → Option (List Char × List Char)
  | [] => none
  | c :: r =>
    if c = '"' ∨ c = '\'' then Text.cut? c r
    else some ((c :: r).takeWhile (!Text.isBlank ·), (c :: r).dropWhile (!Text.isBlank ·))

def isKeyChar (c : Char) : Bool := !Text.isBlank c && c != '='

/-- An attribute, with its value if it has one, and the text after it. -/
def readAttribute? (s : List Char) : Option ((String × Option String) × List Char) :=
  let key := String.ofList (s.takeWhile isKeyChar)
  if (s.takeWhile isKeyChar).isEmpty then none
  else match Text.trimStart (s.dropWhile isKeyChar) with
    | '=' :: r =>
      (readValue? (Text.trimStart r)).map fun (v, after) => ((key, some (String.ofList v)), after)
    | rest => some ((key, none), rest)

theorem readValue?_length {s v after : List Char} (h : readValue? s = some (v, after)) :
    after.length ≤ s.length := by
  unfold readValue? at h
  split at h
  · cases h
  · split at h
    · have := Text.cut?_length h; simp; omega
    · cases h; exact (List.dropWhile_suffix _).length_le

theorem readAttribute?_length {s after : List Char} {a : String × Option String}
    (h : readAttribute? s = some (a, after)) : after.length < s.length := by
  unfold readAttribute? at h
  simp only at h
  split at h
  · cases h
  · rename_i hk
    have hlen : (s.dropWhile isKeyChar).length < s.length := by
      have hs := congrArg List.length (@List.takeWhile_append_dropWhile _ isKeyChar s)
      rw [List.length_append] at hs
      have : 0 < (s.takeWhile isKeyChar).length := by
        rw [List.length_pos_iff]; simpa using hk
      omega
    have htrim : (Text.trimStart (s.dropWhile isKeyChar)).length ≤ (s.dropWhile isKeyChar).length :=
      (List.dropWhile_suffix _).length_le
    split at h
    · rename_i r hr
      cases hv : readValue? (Text.trimStart r) with
      | none => simp [hv] at h
      | some p =>
        obtain ⟨v, after'⟩ := p
        simp [hv] at h
        obtain ⟨-, rfl⟩ := h
        have h1 := readValue?_length hv
        have h2 : (Text.trimStart r).length ≤ r.length := (List.dropWhile_suffix _).length_le
        rw [hr] at htrim; simp at htrim; omega
    · cases h; omega

/-- All attributes; `none` if one is malformed. -/
def readAttributes? (s : List Char) : Option (List (String × Option String)) :=
  if (Text.trimStart s).isEmpty then some []
  else match _h : readAttribute? (Text.trimStart s) with
    | none => none
    | some (a, rest) => (readAttributes? rest).map (a :: ·)
  termination_by s.length
  decreasing_by
    have h1 := readAttribute?_length _h
    have h2 : (Text.trimStart s).length ≤ s.length := (List.dropWhile_suffix _).length_le
    omega

/-! ## Reading a tag -/

/-- The text after `word`, which is in lower case, in any letter case. -/
def dropWord? (word s : List Char) : Option (List Char) :=
  if (s.take word.length).map Char.toLower = word then some (s.drop word.length) else none

def isNameEnd : List Char → Bool
  | [] => true
  | c :: _ => Text.isBlank c || c == '>' || c == '/'

/-- The inside of a tag without a slash at its end, and whether there was one. -/
def cutSlash (inner : List Char) : List Char × Bool :=
  let s := Text.trimEnd inner
  if s.getLast? = some '/' then (s.dropLast, true) else (inner, false)

/-- The value of the first attribute called `name`. -/
def nameAttribute? (attributes : List (String × Option String)) : Option String :=
  match attributes.find? (Text.asciiLower ·.1 == "name") with
  | some (_, some v) => if v = "" then none else some v
  | _ => none

/-- The named tag with the source text `source`, `s` being what follows the word `webobject`. -/
def readNamed (source : String) (closing selfClosing : Bool) (s : List Char) :
    Except MarkupError Tag :=
  if closing then .ok closeNamed
  else match readAttributes? s with
    | none => .error (.malformedTag source)
    | some attributes =>
      match nameAttribute? attributes with
      | none => .error (.missingName source)
      | some name => .ok (openNamed name selfClosing)

/-- The inline tag with the source text `source`, `s` being what follows `wo:`. -/
def readInline (source : String) (closing selfClosing : Bool) (s : List Char) :
    Except MarkupError Tag :=
  let typeName := String.ofList (s.takeWhile (!Text.isBlank ·))
  if typeName = "" then .error (.malformedTag source)
  else if closing then .ok (closeInline typeName)
  else match readAttributes? (s.dropWhile (!Text.isBlank ·)) with
    | none => .error (.malformedTag source)
    | some attributes =>
      .ok (openInline typeName (attributes.map fun (k, v) => (k, v.getD "")) selfClosing)

def webobject : List Char := "webobject".toList

def inlineMark : List Char := "wo:".toList

/-- How much of a tag without end is shown. -/
def shownStart : Nat := 40

/-- What stands before the name in a closing tag. -/
def mark (closing : Bool) : List Char := if closing then ['/'] else []

/-- Whether a tag is a closing one, and its text after that mark. -/
def readMark : List Char → Bool × List Char
  | '/' :: r => (true, r)
  | r => (false, r)

/-- The dynamic tag that `s` begins with, and the text after it; `none` if `s` begins with text
    or with other markup. -/
def read? (s : List Char) : Except MarkupError (Option (Tag × List Char)) :=
  match s with
  | '<' :: r =>
    let (closing, body) := readMark r
    let isNamed := ((dropWord? webobject body).map isNameEnd).getD false
    if !isNamed && (dropWord? inlineMark body).isNone then .ok none
    else match cutEnd? none body with
      | none => .error (.unterminatedTag (String.ofList (s.take shownStart)))
      | some (inner, after) =>
        let source := String.ofList ('<' :: (mark closing ++ inner ++ ['>']))
        let (inner, selfClosing) := cutSlash inner
        let tag :=
          if isNamed then readNamed source closing selfClosing (inner.drop webobject.length)
          else readInline source closing selfClosing (inner.drop inlineMark.length)
        tag.map fun t => some (t, after)
  | _ => .ok none

theorem readMark_length (r : List Char) : (readMark r).2.length ≤ r.length := by
  unfold readMark; split <;> simp

theorem after_of_map {x : Except MarkupError Tag} {a b : List Char} {t : Tag}
    (h : (x.map fun t => some (t, a)) = .ok (some (t, b))) : a = b := by
  cases x with
  | error e => cases h
  | ok t' =>
    cases h
    rfl

theorem read?_length {s after : List Char} {t : Tag} (h : read? s = .ok (some (t, after))) :
    after.length < s.length := by
  unfold read? at h
  split at h
  · rename_i r
    have hbody := readMark_length r
    simp only at h
    generalize readMark r = p at h hbody
    split at h
    · cases h
    · split at h
      · cases h
      · rename_i inner after' hc
        have hlt := cutEnd?_length hc
        obtain rfl := after_of_map h
        simp; omega
  · cases h

end Tag

end PageServer.Template
