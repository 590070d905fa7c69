/-
  PageServer.Decimal.Shortest — the shortest decimal that reads back as a given binary
  floating point number.

  A finite positive number is `m · 2^q`. The decimals that round to it form an interval, its
  ends included if `m` is even. For 1, 2, ... 17 digits the two neighbours of the number on the
  grid of decimals with that many digits are tried; the first grid with a neighbour in the
  interval wins, and of two the nearer one, the upper one if both are equally near.
-/

namespace PageServer.Decimal

/-- The number `digits · 10^exponent`. -/
structure Scientific where
  digits : Nat
  exponent : Int
  deriving DecidableEq, Repr

/-- A number and the ends of the interval that rounds to it, as fractions over `unit`. -/
structure Rounding where
  low : Nat
  value : Nat
  high : Nat
  unit : Nat
  closed : Bool
  deriving DecidableEq, Repr

/-- `m · 2^q`; `least` says that the next smaller number is only half as far away as the next
    larger one. -/
def Rounding.ofBinary (m : Nat) (q : Int) (least : Bool) : Rounding :=
  let scale := Nat.pow 2 (q - 2).toNat
  { low := (4 * m - if least then 1 else 2) * scale
    value := 4 * m * scale
    high := (4 * m + 2) * scale
    unit := Nat.pow 2 (2 - q).toNat
    closed := m % 2 = 0 }

def decimalLength (n : Nat) : Nat := (Nat.toDigits 10 n).length

/-- The exponent `k` of the power of ten with `10^k ≤ value/unit < 10^(k+1)`. -/
def Rounding.magnitude (r : Rounding) : Int :=
  if r.unit ≤ r.value then (decimalLength (r.value / r.unit) : Int) - 1
  else
    let d := decimalLength (r.unit / r.value)
    if r.unit ≤ r.value * Nat.pow 10 (d - 1) then -((d - 1 : Nat) : Int) else -(d : Int)

/-- The better neighbour of the number among the multiples of `10^e`, if one rounds to it. -/
def Rounding.onGrid? (r : Rounding) (e : Int) : Option Scientific :=
  let up := Nat.pow 10 (-e).toNat
  let step := r.unit * Nat.pow 10 e.toNat
  let v := r.value * up
  let below := v / step
  let holds (d : Nat) : Bool :=
    let x := d * step
    if r.closed then r.low * up ≤ x && x ≤ r.high * up else r.low * up < x && x < r.high * up
  match holds below, holds (below + 1) with
  | true, true => some ⟨if 2 * (v - below * step) < step then below else below + 1, e⟩
  | true, false => some ⟨below, e⟩
  | false, true => some ⟨below + 1, e⟩
  | false, false => none

def Rounding.shortest (r : Rounding) : Scientific :=
  let k := r.magnitude
  ((List.range 17).findSome? fun (n : Nat) => r.onGrid? (k - (n : Int))).getD
    ⟨r.value / r.unit, 0⟩

/-! ## Floating point numbers -/

/-- The significand and the exponent of the absolute value of a finite number. -/
def significand (x : Float) : Nat × Int :=
  let bits : Nat := x.toBits.toNat % Nat.pow 2 63
  let e : Nat := bits / Nat.pow 2 52
  let f : Nat := bits % Nat.pow 2 52
  if e = 0 then (f, -1074) else (f + Nat.pow 2 52, (e : Int) - 1075)

def isNegative (x : Float) : Bool := Nat.pow 2 63 ≤ x.toBits.toNat

/-- The shortest decimal for the absolute value of a finite number, without trailing zeros. -/
def shortest (x : Float) : Scientific :=
  let (m, q) := significand x
  if m = 0 then ⟨0, 0⟩
  else
    let s := (Rounding.ofBinary m q (m = Nat.pow 2 52 ∧ -1074 < q)).shortest
    if s.digits % 10 = 0 then ⟨s.digits / 10, s.exponent + 1⟩ else s

end PageServer.Decimal
