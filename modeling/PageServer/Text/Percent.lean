/-
  PageServer.Text.Percent — percent-encoding of URLs, and the form data made of it.
-/

import PageServer.Text.Pieces
import PageServer.Text.Utf8

namespace PageServer.Text

/-- What can be wrong with a percent-encoded text: a `%` without two hexadecimal digits after
    it, or bytes that are no UTF-8. -/
inductive PercentError where
  | malformed
  deriving DecidableEq, Repr

def PercentError.message : PercentError → String
  | .malformed => "url decoding error: invalid percent-encoded string"

instance : ToString PercentError := ⟨PercentError.message⟩

/-! ## Encoding -/

/-- The graphic ASCII characters that have no meaning of their own in a URL. -/
def isUnreserved (c : Char) : Bool :=
  0x21 ≤ c.toNat && c.toNat ≤ 0x7E && !"!#$%&'()*+,/:;=?@[]".toList.contains c

def hexDigit (n : Nat) : Char :=
  if n < 10 then Char.ofNat (48 + n) else Char.ofNat (55 + n)

def percentByte (b : UInt8) : List Char :=
  ['%', hexDigit (b.toNat / 16), hexDigit (b.toNat % 16)]

def percentChar (c : Char) : List Char :=
  if isUnreserved c then [c] else (String.utf8EncodeChar c).flatMap percentByte

def percentEncode (s : List Char) : List Char := s.flatMap percentChar

/-! ## Decoding -/

def hexValue? (c : Char) : Option Nat :=
  let n := c.toNat
  if 48 ≤ n ∧ n ≤ 57 then some (n - 48)
  else if 65 ≤ n ∧ n ≤ 70 then some (n - 55)
  else if 97 ≤ n ∧ n ≤ 102 then some (n - 87)
  else none

/-- The bytes a percent-encoded text stands for, after those in `done` (last one first). -/
def percentBytes (done : List UInt8) : List Char → Option (List UInt8)
  | [] => some done.reverse
  | '%' :: a :: b :: rest =>
    match hexValue? a, hexValue? b with
    | some x, some y => percentBytes (UInt8.ofNat (16 * x + y) :: done) rest
    | _, _ => none
  | c :: rest =>
    if c = '%' then none
    else percentBytes ((String.utf8EncodeChar c).reverse ++ done) rest

def percentDecode (s : List Char) : Except PercentError (List Char) :=
  match (percentBytes [] s).bind decodeLenient with
  | some t => .ok t
  | none => .error .malformed

/-! ## Form data -/

def plusToSpace (s : List Char) : List Char := s.map fun c => if c = '+' then ' ' else c

/-- One pair of form data; without a `=` its value is empty. -/
def formPair (pair : List Char) : Except PercentError (String × String) := do
  let (k, v) := (cut? '=' pair).getD (pair, [])
  let k ← percentDecode (plusToSpace k)
  let v ← percentDecode (plusToSpace v)
  return (String.ofList k, String.ofList v)

/-- The pairs of form data or of a query string, in order; empty ones are skipped. -/
def formPairs (s : List Char) : Except PercentError (List (String × String)) :=
  (fullPieces '&' s).mapM formPair

end PageServer.Text
