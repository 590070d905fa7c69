/-
  PageServer.Proofs.QuotedTexts — a quoted text is read back, whatever it holds.

  Between the quotes a backslash says how to take what comes after it, and a bare quote is the end.
  A character is written in one of three ways (`quotedChar_cases`), and each is read back with
  anything after it (`readChar?_quotedChar`). So a text ends at its own closing quote and not at
  one that it holds (`unquote?_quoted`), and holds no line break (`newline_not_mem_quote`). In a
  line where all that stands between the quoted texts is bare, without a quote or a line break of
  its own, the quoted texts are read back in order (`quotedFields?_woven`).
-/

import PageServer.Text.Quoted
import PageServer.Proofs.AddressTexts

namespace PageServer.Text

/-! ## Reading -/

/-- The character that a letter after a backslash stands for. -/
def ofShortName? (n : Char) : Option Char :=
  if n = 'n' then some '\n'
  else if n = 'r' then some '\r'
  else if n = 't' then some '\t'
  else if n = '0' then some '\x00'
  else if n = '\\' then some '\\'
  else if n = '"' then some '"'
  else none

/-- The number whose hexadecimal digits are those of `n` and then these. -/
def readHex? (n : Nat) : List Char → Option Nat
  | [] => some n
  | c :: rest => (hexValue? c).bind fun d => readHex? (16 * n + d) rest

/-- A code point in braces. -/
def readCodePoint? (s : List Char) : Option (Char × List Char) := do
  let (opening, s) ← cut? '\x7b' s
  let (digits, rest) ← cut? '\x7d' s
  let n ← readHex? 0 digits
  if opening.isEmpty ∧ n.isValidChar then some (Char.ofNat n, rest) else none

/-- The character that comes first between quotes, and the text after it. -/
def readChar? : List Char → Option (Char × List Char)
  | [] => none
  | '\\' :: 'u' :: rest => readCodePoint? rest
  | ['\\'] => none
  | '\\' :: n :: rest => (ofShortName? n).map (·, rest)
  | c :: rest => some (c, rest)

theorem readCodePoint?_length {s rest : List Char} {c : Char} (h : readCodePoint? s = some (c, rest)) :
    rest.length < s.length := by
  simp only [readCodePoint?, Option.bind_eq_bind, Option.bind_eq_some_iff] at h
  obtain ⟨⟨opening, inside⟩, hopening, ⟨digits, after⟩, hclosing, n, -, h⟩ := h
  split at h
  · cases h
    have hinside : inside.length < s.length := cut?_length hopening
    have hafter : after.length < inside.length := cut?_length hclosing
    exact Nat.lt_trans hafter hinside
  · cases h

theorem readChar?_length {s rest : List Char} {c : Char} (h : readChar? s = some (c, rest)) :
    rest.length < s.length := by
  unfold readChar? at h
  split at h
  · cases h
  · have hrest := readCodePoint?_length h
    simp only [List.length_cons]
    omega
  · cases h
  · obtain ⟨d, -, hd⟩ := Option.map_eq_some_iff.mp h
    cases hd
    simp only [List.length_cons]
    omega
  · cases h
    simp

/-- What was quoted, from the text after the opening quote; and the text after the closing one. -/
def unquote? (s : List Char) : Option (List Char × List Char) :=
  if s.head? = some '"' then some ([], s.tail)
  else match _ : readChar? s with
    | none => none
    | some (c, rest) => (unquote? rest).map fun quoted => (c :: quoted.1, quoted.2)
termination_by s.length
decreasing_by exact readChar?_length ‹_›

theorem unquote?_eq (s : List Char) :
    unquote? s =
      if s.head? = some '"' then some ([], s.tail)
      else (readChar? s).bind fun read => (unquote? read.2).map fun quoted => (read.1 :: quoted.1, quoted.2) := by
  rw [unquote?]
  split
  · rfl
  · split <;> simp [*]

theorem unquote?_length {s t rest : List Char} (h : unquote? s = some (t, rest)) : rest.length ≤ s.length := by
  induction hn : s.length using Nat.strongRecOn generalizing s t with
  | ind n ih =>
    subst hn
    rw [unquote?_eq] at h
    split at h
    · cases h
      simp
    · obtain ⟨⟨c, after⟩, hchar, h⟩ := Option.bind_eq_some_iff.mp h
      obtain ⟨⟨t', rest'⟩, hquoted, heq⟩ := Option.map_eq_some_iff.mp h
      cases heq
      have hafter : after.length < s.length := readChar?_length hchar
      have hrest : rest'.length ≤ after.length := ih after.length hafter hquoted rfl
      exact Nat.le_trans hrest (Nat.le_of_lt hafter)

/-- The quoted texts of a line, in order. -/
def quotedFields? (s : List Char) : Option (List String) :=
  match _ : cut? '"' s with
  | none => some []
  | some (_, inside) =>
    match _ : unquote? inside with
    | none => none
    | some (t, rest) => (quotedFields? rest).map (String.ofList t :: ·)
termination_by s.length
decreasing_by
  rename_i hcut hunquote
  have hinside : inside.length < s.length := cut?_length hcut
  have hrest : rest.length ≤ inside.length := unquote?_length hunquote
  omega

theorem quotedFields?_eq (s : List Char) :
    quotedFields? s =
      (cut? '"' s).elim (some []) fun cut =>
        (unquote? cut.2).bind fun quoted => (quotedFields? quoted.2).map (String.ofList quoted.1 :: ·) := by
  rw [quotedFields?]
  split
  · simp [*]
  · split <;> simp [*]

/-! ## Hexadecimal digits -/

theorem hexValue?_digitChar : ∀ d < 16, hexValue? (Nat.digitChar d) = some d := by decide

theorem readHex?_append (n : Nat) (a b : List Char) :
    readHex? n (a ++ b) = (readHex? n a).bind fun m => readHex? m b := by
  induction a generalizing n with
  | nil => rfl
  | cons c a ih =>
    cases hc : hexValue? c with
    | none => simp [readHex?, hc]
    | some d => simp [readHex?, hc, ih]

theorem readHex?_toDigits (n : Nat) : readHex? 0 (Nat.toDigits 16 n) = some n := by
  induction n using Nat.strongRecOn with
  | ind n ih =>
    by_cases hn : n < 16
    · rw [Nat.toDigits_of_lt_base hn]
      simp [readHex?, hexValue?_digitChar n hn]
    · have hlast : hexValue? (Nat.digitChar (n % 16)) = some (n % 16) :=
        hexValue?_digitChar _ (Nat.mod_lt n (by decide))
      rw [Nat.toDigits_of_base_le (by decide) (by omega), readHex?_append, ih (n / 16) (by omega)]
      simp only [Option.bind_some, readHex?, hlast, Option.some.injEq]
      omega

/-- Whatever is read as a number is made of digits. -/
theorem isSome_hexValue?_of_readHex? {n m : Nat} {s : List Char} (h : readHex? n s = some m) :
    ∀ c ∈ s, (hexValue? c).isSome = true := by
  induction s generalizing n with
  | nil =>
    intro c hc
    cases hc
  | cons x s ih =>
    obtain ⟨d, hd, hs⟩ := Option.bind_eq_some_iff.mp h
    intro c hc
    rcases List.mem_cons.mp hc with rfl | hc
    · rw [hd]
      rfl
    · exact ih hs c hc

theorem isSome_hexValue?_toDigits (n : Nat) : ∀ c ∈ Nat.toDigits 16 n, (hexValue? c).isSome = true :=
  isSome_hexValue?_of_readHex? (readHex?_toDigits n)

/-- What is no digit is in no number. -/
theorem not_mem_toDigits {c : Char} (h : hexValue? c = none) (n : Nat) : c ∉ Nat.toDigits 16 n := by
  intro hc
  have hsome := isSome_hexValue?_toDigits n c hc
  rw [h] at hsome
  cases hsome

/-! ## One character -/

theorem ofShortName?_shortName? {c n : Char} (h : shortName? c = some n) : ofShortName? n = some c ∧ n ≠ '\n' := by
  unfold shortName? at h
  repeat' split at h
  all_goals cases h
  all_goals subst c; decide

/-- A character is written by a short name, as itself or by its code point. -/
theorem quotedChar_cases (c : Char) :
    (∃ n, quotedChar c = ['\\', n] ∧ ofShortName? n = some c ∧ n ≠ '\n') ∨
    (quotedChar c = [c] ∧ c ≠ '"' ∧ c ≠ '\\' ∧ c ≠ '\n') ∨ quotedChar c = codePointName c := by
  by_cases hquote : c = '"'
  · subst hquote
    exact .inl ⟨'"', rfl, rfl, by decide⟩
  cases hname : shortName? c with
  | some n => exact .inl ⟨n, by simp [quotedChar, hquote, hname], ofShortName?_shortName? hname⟩
  | none =>
    by_cases hprint : isPrintable c
    · have hplain : c ≠ '\\' ∧ c ≠ '\n' := by
        refine ⟨?_, ?_⟩ <;> rintro rfl <;> cases hname
      exact .inr (.inl ⟨by simp [quotedChar, hquote, hname, hprint], hquote, hplain⟩)
    · exact .inr (.inr (by simp [quotedChar, hquote, hname, hprint]))

theorem readCodePoint?_digits (c : Char) (rest : List Char) :
    readCodePoint? ('\x7b' :: (Nat.toDigits 16 c.toNat ++ '\x7d' :: rest)) = some (c, rest) := by
  have hopening : cut? '\x7b' ('\x7b' :: (Nat.toDigits 16 c.toNat ++ '\x7d' :: rest)) =
      some ([], Nat.toDigits 16 c.toNat ++ '\x7d' :: rest) := cut?_eq_some List.not_mem_nil _
  have hclosing : cut? '\x7d' (Nat.toDigits 16 c.toNat ++ '\x7d' :: rest) = some (Nat.toDigits 16 c.toNat, rest) :=
    cut?_eq_some (not_mem_toDigits (by decide) _) rest
  have hvalid : c.toNat.isValidChar := c.valid
  simp [readCodePoint?, hopening, hclosing, readHex?_toDigits, hvalid, Char.ofNat_toNat]

/-- What is no backslash stands for itself. -/
theorem readChar?_self {c : Char} (h : c ≠ '\\') (rest : List Char) : readChar? (c :: rest) = some (c, rest) := by
  unfold readChar?
  split <;> simp_all

theorem readChar?_shortName {n c : Char} (h : ofShortName? n = some c) (rest : List Char) :
    readChar? ('\\' :: n :: rest) = some (c, rest) := by
  have hu : n ≠ 'u' := by
    rintro rfl
    cases h
  simp [readChar?, h]

theorem readChar?_quotedChar (c : Char) (rest : List Char) : readChar? (quotedChar c ++ rest) = some (c, rest) := by
  rcases quotedChar_cases c with ⟨n, heq, hname, -⟩ | ⟨heq, -, hslash, -⟩ | heq
  · rw [heq]
    exact readChar?_shortName hname rest
  · rw [heq]
    exact readChar?_self hslash rest
  · rw [heq, codePointName]
    have hread : readChar? ('\\' :: 'u' :: '\x7b' :: (Nat.toDigits 16 c.toNat ++ '\x7d' :: rest)) = some (c, rest) :=
      readCodePoint?_digits c rest
    simpa using hread

/-- No character is written with a bare quote at its start. -/
theorem head?_quotedChar (c : Char) (rest : List Char) : (quotedChar c ++ rest).head? ≠ some '"' := by
  rcases quotedChar_cases c with ⟨n, heq, -, -⟩ | ⟨heq, hquote, -, -⟩ | heq
  · simp [heq]
  · simpa [heq] using hquote
  · simp [heq, codePointName]

theorem newline_not_mem_quotedChar (c : Char) : '\n' ∉ quotedChar c := by
  rcases quotedChar_cases c with ⟨n, heq, -, hn⟩ | ⟨heq, -, -, hc⟩ | heq
  · simpa [heq] using hn.symm
  · simpa [heq] using hc.symm
  · simpa [heq, codePointName] using not_mem_toDigits (by decide) c.toNat

/-! ## Whole texts -/

theorem newline_not_mem_quote (s : String) : '\n' ∉ (quote s).toList := by
  intro h
  have hbody : '\n' ∈ s.toList.flatMap quotedChar := by simpa [quote] using h
  obtain ⟨c, -, hc⟩ := List.mem_flatMap.mp hbody
  exact newline_not_mem_quotedChar c hc

/-- A quoted text is read up to its closing quote. -/
theorem unquote?_quoted (s rest : List Char) : unquote? (s.flatMap quotedChar ++ '"' :: rest) = some (s, rest) := by
  induction s with
  | nil => simp [unquote?_eq]
  | cons c s ih =>
    rw [List.flatMap_cons, List.append_assoc]
    rw [unquote?_eq, if_neg (head?_quotedChar c _), readChar?_quotedChar, Option.bind_some, ih]
    rfl

theorem quotedFields?_eq_nil {w : List Char} (h : '"' ∉ w) : quotedFields? w = some [] := by
  rw [quotedFields?_eq, cut?_eq_none h, Option.elim_none]

/-- The first quoted text of a line, up to which there is no quote. -/
theorem quotedFields?_quote {w : List Char} (h : '"' ∉ w) (s : String) (rest : List Char) :
    quotedFields? (w ++ (quote s).toList ++ rest) = (quotedFields? rest).map (s :: ·) := by
  have htext : w ++ (quote s).toList ++ rest = w ++ '"' :: (s.toList.flatMap quotedChar ++ '"' :: rest) := by
    simp [quote]
  rw [htext, quotedFields?_eq, cut?_eq_some h, Option.elim_some, unquote?_quoted, Option.bind_some,
    String.ofList_toList]

/-! ## Quoted texts in a line -/

/-- A text that neither begins a quoted field nor ends a line. -/
def Bare (s : String) : Prop := ∀ c ∈ s.toList, c ≠ '"' ∧ c ≠ '\n'

instance (s : String) : Decidable (Bare s) := List.decidableBAll _ s.toList

variable {s t : String}

@[simp] theorem bare_append : Bare (s ++ t) ↔ Bare s ∧ Bare t := by
  unfold Bare
  rw [String.toList_append, List.forall_mem_append]

theorem Bare.quote_not_mem (h : Bare s) : '"' ∉ s.toList := by
  intro hc
  exact (h _ hc).1 rfl

theorem Bare.newline_not_mem (h : Bare s) : '\n' ∉ s.toList := by
  intro hc
  exact (h _ hc).2 rfl

theorem Bare.intercalate {parts : List String} (hs : Bare s) (h : ∀ p ∈ parts, Bare p) : Bare (s.intercalate parts) := by
  induction parts with
  | nil =>
    intro c hc
    cases hc
  | cons p parts ih =>
    have hp : Bare p := h p List.mem_cons_self
    cases parts with
    | nil => simpa using hp
    | cons q parts =>
      have hrest : Bare (s.intercalate (q :: parts)) := ih fun r hr => h r (List.mem_cons_of_mem _ hr)
      rw [String.intercalate_cons_cons, bare_append, bare_append]
      exact ⟨⟨hp, hs⟩, hrest⟩

theorem bare_of_digits (h : ∀ c ∈ s.toList, (hexValue? c).isSome = true) : Bare s := by
  intro c hc
  refine ⟨?_, ?_⟩
  · rintro rfl
    exact absurd (h _ hc) (by decide)
  · rintro rfl
    exact absurd (h _ hc) (by decide)

theorem isSome_hexValue?_of_isDigit {c : Char} (h : c.isDigit = true) : (hexValue? c).isSome = true := by
  have hrange : 48 ≤ c.toNat ∧ c.toNat ≤ 57 := by simpa [Char.isDigit, UInt32.le_iff_toNat_le] using h
  simp [hexValue?, hrange]

@[simp] theorem bare_toString (n : Nat) : Bare (toString n) :=
  bare_of_digits fun c hc => isSome_hexValue?_of_isDigit ((digits_toString n).2 c hc)

/-- A line of quoted texts, with what is written before each of them and after the last. -/
def woven (fields : List (String × String)) (after : String) : String :=
  fields.foldr (fun field line => field.1 ++ quote field.2 ++ line) after

variable {fields : List (String × String)} {after : String}

theorem newline_not_mem_woven (h : ∀ field ∈ fields, Bare field.1) (hafter : Bare after) :
    '\n' ∉ (woven fields after).toList := by
  induction fields with
  | nil => exact hafter.newline_not_mem
  | cons field fields ih =>
    obtain ⟨hfield, hfields⟩ := List.forall_mem_cons.mp h
    have hrest : '\n' ∉ (woven fields after).toList := ih hfields
    show '\n' ∉ (field.1 ++ quote field.2 ++ woven fields after).toList
    simp [hfield.newline_not_mem, newline_not_mem_quote, hrest]

/-- What was quoted is read back, whatever it holds. -/
theorem quotedFields?_woven (h : ∀ field ∈ fields, Bare field.1) (hafter : Bare after) :
    quotedFields? (woven fields after).toList = some (fields.map (·.2)) := by
  induction fields with
  | nil => exact quotedFields?_eq_nil hafter.quote_not_mem
  | cons field fields ih =>
    obtain ⟨hfield, hfields⟩ := List.forall_mem_cons.mp h
    show quotedFields? (field.1 ++ quote field.2 ++ woven fields after).toList = _
    rw [String.toList_append, String.toList_append, quotedFields?_quote hfield.quote_not_mem, ih hfields]
    rfl

end PageServer.Text
