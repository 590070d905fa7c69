/-
  PageServer.Text.Utf8 — two readers of bytes as UTF-8.

  `decodeLossy` accepts every byte sequence: what is no UTF-8 gives replacement characters,
  one for each longest beginning of a character that is broken off. `decodeLenient` accepts
  overlong forms and fails on anything else that is no UTF-8.
-/

namespace PageServer.Text

def replacement : Char := Char.ofNat 0xFFFD

/-- A character of which `missing` continuation bytes are still to come, the next one in
    `low`..`high`; `code` is made of the bits so far. -/
structure Unfinished where
  missing : Nat
  code : Nat
  low : Nat
  high : Nat
  deriving DecidableEq, Repr

/-- The character that a first byte begins, or `none` if no character begins so. -/
def beginning? (b : Nat) : Option (Char ⊕ Unfinished) :=
  if b < 0x80 then some (.inl (Char.ofNat b))
  else if 0xC2 ≤ b ∧ b ≤ 0xDF then some (.inr ⟨1, b - 0xC0, 0x80, 0xBF⟩)
  else if b = 0xE0 then some (.inr ⟨2, 0, 0xA0, 0xBF⟩)
  else if b = 0xED then some (.inr ⟨2, 0xD, 0x80, 0x9F⟩)
  else if 0xE1 ≤ b ∧ b ≤ 0xEF then some (.inr ⟨2, b - 0xE0, 0x80, 0xBF⟩)
  else if b = 0xF0 then some (.inr ⟨3, 0, 0x90, 0xBF⟩)
  else if 0xF1 ≤ b ∧ b ≤ 0xF3 then some (.inr ⟨3, b - 0xF0, 0x80, 0xBF⟩)
  else if b = 0xF4 then some (.inr ⟨3, 4, 0x80, 0x8F⟩)
  else none

/-- The characters so far, last one first, and the character being read. -/
structure Reading where
  done : List Char := []
  open? : Option Unfinished := none

def Reading.start (r : Reading) (b : Nat) : Reading :=
  match beginning? b with
  | some (.inl c) => ⟨c :: r.done, none⟩
  | some (.inr u) => ⟨r.done, some u⟩
  | none => ⟨replacement :: r.done, none⟩

def Reading.next (r : Reading) (byte : UInt8) : Reading :=
  let b := byte.toNat
  match r.open? with
  | none => r.start b
  | some u =>
    if u.low ≤ b ∧ b ≤ u.high then
      let code := u.code * 64 + (b - 0x80)
      if u.missing ≤ 1 then ⟨Char.ofNat code :: r.done, none⟩
      else ⟨r.done, some ⟨u.missing - 1, code, 0x80, 0xBF⟩⟩
    else Reading.start ⟨replacement :: r.done, none⟩ b

def Reading.finish (r : Reading) : List Char :=
  match r.open? with
  | none => r.done.reverse
  | some _ => (replacement :: r.done).reverse

def decodeLossy (bytes : ByteArray) : String :=
  match String.fromUTF8? bytes with
  | some s => s
  | none => String.ofList (bytes.toList.foldl Reading.next {}).finish

/-- The number of continuation bytes after a first byte, and the bits in it. -/
def lenientStart? (b : Nat) : Option (Nat × Nat) :=
  if b < 0x80 then some (0, b)
  else if 0xC0 ≤ b ∧ b < 0xE0 then some (1, b - 0xC0)
  else if 0xE0 ≤ b ∧ b < 0xF0 then some (2, b - 0xE0)
  else if 0xF0 ≤ b ∧ b < 0xF8 then some (3, b - 0xF0)
  else none

/-- `done` are the characters so far, last one first; `missing` continuation bytes of the
    character with the bits `code` are still to come. -/
def lenientAfter (done : List Char) (missing code : Nat) : List UInt8 → Option (List Char)
  | [] => if missing = 0 then some done.reverse else none
  | byte :: rest =>
    let b := byte.toNat
    match missing with
    | 0 =>
      match lenientStart? b with
      | none => none
      | some (0, c) => lenientAfter (Char.ofNat c :: done) 0 0 rest
      | some (n + 1, c) => lenientAfter done (n + 1) c rest
    | m + 1 =>
      if 0x80 ≤ b ∧ b < 0xC0 then
        let c := code * 64 + (b - 0x80)
        if m = 0 then
          if c.isValidChar then lenientAfter (Char.ofNat c :: done) 0 0 rest else none
        else lenientAfter done m c rest
      else none

def decodeLenient (bytes : List UInt8) : Option (List Char) := lenientAfter [] 0 0 bytes

end PageServer.Text
