/-
  PageServer.Text.Number — reading whole numbers within limits.
-/

namespace PageServer.Text

inductive NumberError where
  | empty
  | invalidDigit
  | tooLarge
  | tooSmall
  deriving DecidableEq, Repr

def NumberError.message : NumberError → String
  | .empty => "cannot parse integer from empty string"
  | .invalidDigit => "invalid digit found in string"
  | .tooLarge => "number too large to fit in target type"
  | .tooSmall => "number too small to fit in target type"

def digitValue? (c : Char) : Option Nat :=
  if c.isDigit then some (c.toNat - 48) else none

/-- The number whose digits follow those of `n`. The first fault counts: a character that is no
    digit, or the digit that takes the number over `limit`. -/
def readDigits (limit : Nat) (excess : NumberError) (n : Nat) : List Char → Except NumberError Nat
  | [] => .ok n
  | c :: r =>
    match digitValue? c with
    | none => .error .invalidDigit
    | some d => if n * 10 + d ≤ limit then readDigits limit excess (n * 10 + d) r else .error excess

/-- A number from 0 to `limit`; a plus sign may come first. -/
def readNat (limit : Nat) : List Char → Except NumberError Nat
  | [] => .error .empty
  | ['+'] => .error .invalidDigit
  | '+' :: r => readDigits limit .tooLarge 0 r
  | s => readDigits limit .tooLarge 0 s

/-- A number of a two's complement word of `bits` bits; a sign may come first. -/
def readInt (bits : Nat) : List Char → Except NumberError Int
  | [] => .error .empty
  | ['+'] | ['-'] => .error .invalidDigit
  | '-' :: r => (readDigits (Nat.pow 2 (bits - 1)) .tooSmall 0 r).map fun n => -(n : Int)
  | '+' :: r => (readDigits (Nat.pow 2 (bits - 1) - 1) .tooLarge 0 r).map Int.ofNat
  | s => (readDigits (Nat.pow 2 (bits - 1) - 1) .tooLarge 0 s).map Int.ofNat

end PageServer.Text
