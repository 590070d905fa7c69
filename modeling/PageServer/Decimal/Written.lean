/-
  PageServer.Decimal.Written — the texts of floating point numbers: written with the fewest
  digits that read back, and read.
-/

import PageServer.Decimal.Nearest
import PageServer.Decimal.Shortest

namespace PageServer.Decimal

def zeros (n : Nat) : List Char := List.replicate n '0'

/-- Positional notation, never an exponent. -/
def Scientific.positional (s : Scientific) : List Char :=
  let ds := Nat.toDigits 10 s.digits
  if 0 ≤ s.exponent then ds ++ zeros s.exponent.toNat
  else
    let places := (-s.exponent).toNat
    if places < ds.length then ds.take (ds.length - places) ++ '.' :: ds.drop (ds.length - places)
    else '0' :: '.' :: (zeros (places - ds.length) ++ ds)

/-- One digit before the point, and an exponent. -/
def Scientific.withExponent (s : Scientific) : List Char :=
  match Nat.toDigits 10 s.digits with
  | [] => []
  | d :: rest =>
    let e := s.exponent + rest.length
    d :: ((if rest.isEmpty then [] else '.' :: rest) ++ 'e' :: (toString e).toList)

def signed (x : Float) (s : List Char) : String :=
  String.ofList (if isNegative x then '-' :: s else s)

/-- The text shown for a number; whole numbers have no point. -/
def text (x : Float) : String :=
  if x.isNaN then "NaN"
  else if x.isInf then signed x ['i', 'n', 'f']
  else signed x (shortest x).positional

/-- The text with a point also for whole numbers. -/
def textWithPoint (x : Float) : String :=
  let s := text x
  if x.isNaN || x.isInf || s.toList.contains '.' then s else s ++ ".0"

/-- The text in a description of a value: with an exponent from 10^16 on and below 10^-4. -/
def inspect (x : Float) : String :=
  let s := shortest x
  let k := s.exponent + (decimalLength s.digits : Int) - 1
  if x.isNaN || x.isInf || s.digits = 0 || (-4 ≤ k ∧ k < 16) then textWithPoint x
  else signed x s.withExponent

/-! ## Reading -/

/-- `digits · 10^exponent` as the nearest number; the order of magnitude is looked at first, so
    that no exponent is too large to work with. -/
def ofScientific (digits : Nat) (exponent : Int) : Float :=
  let k := exponent + decimalLength digits
  if digits = 0 ∨ k < -400 then 0.0
  else if 400 < k then 1.0 / 0.0
  else nearest (digits * Nat.pow 10 exponent.toNat) (Nat.pow 10 (-exponent).toNat)

def natOfDigits (ds : List Char) : Nat := ds.foldl (fun n c => n * 10 + (c.toNat - 48)) 0

/-- An exponent mark with its number, or nothing. -/
def readExponent? : List Char → Option Int
  | [] => some 0
  | c :: r =>
    let (negative, ds) := match r with
      | '-' :: r' => (true, r')
      | '+' :: r' => (false, r')
      | _ => (false, r)
    if (c = 'e' ∨ c = 'E') ∧ !ds.isEmpty ∧ ds.all Char.isDigit then
      some (if negative then -(natOfDigits ds : Int) else natOfDigits ds)
    else none

/-- A number without its sign. -/
def readUnsigned? (s : List Char) : Option Float :=
  let name := String.ofList (s.map Char.toLower)
  if name = "inf" ∨ name = "infinity" then some (1.0 / 0.0)
  else if name = "nan" then some (0.0 / 0.0)
  else
    let whole := s.takeWhile Char.isDigit
    let rest := s.dropWhile Char.isDigit
    let (places, rest) := match rest with
      | '.' :: r => (r.takeWhile Char.isDigit, r.dropWhile Char.isDigit)
      | _ => ([], rest)
    if whole.isEmpty ∧ places.isEmpty then none
    else (readExponent? rest).map fun e =>
      ofScientific (natOfDigits (whole ++ places)) (e - places.length)

/-- The nearest number to a decimal; a sign may come first. -/
def read? : List Char → Option Float
  | '-' :: r => (readUnsigned? r).map (-·)
  | '+' :: r => readUnsigned? r
  | s => readUnsigned? s

end PageServer.Decimal
