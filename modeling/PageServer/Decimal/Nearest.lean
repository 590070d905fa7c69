/-
  PageServer.Decimal.Nearest — the binary floating point number that is nearest to a fraction.

  The significand is the whole part of the fraction in units of 2^q, rounded to the nearest, a
  half to the even neighbour. The unit is chosen so that the significand has 53 bits, unless
  the number is too small for that. A significand that is rounded up to 54 bits carries over
  into the exponent, as the two stand next to each other in the number's bits.
-/

namespace PageServer.Decimal

/-- The whole number nearest to `num / den`; a half goes to the even neighbour. -/
def roundHalfEven (num den : Nat) : Nat :=
  let n := num / den
  let twice := 2 * (num % den)
  if den < twice ∨ (twice = den ∧ n % 2 = 1) then n + 1 else n

/-- The exponent of the smallest unit. -/
def minExponent : Int := -1074

/-- The exponent of the unit for `num / den`. -/
def unitExponent (num den : Nat) : Int :=
  let e : Int := (num.log2 : Int) - den.log2
  let reached := den * Nat.pow 2 e.toNat ≤ num * Nat.pow 2 (-e).toNat
  max (if reached then e - 52 else e - 53) minExponent

/-- The bits of the largest exponent, which no finite number has. -/
def infinityBits : Nat := 0x7FF * Nat.pow 2 52

/-- The bits of the number nearest to `num / den`. -/
def nearestBits (num den : Nat) : Nat :=
  if num = 0 then 0
  else
    let q := unitExponent num den
    let m := roundHalfEven (num * Nat.pow 2 (-q).toNat) (den * Nat.pow 2 q.toNat)
    min (m + (q - minExponent).toNat * Nat.pow 2 52) infinityBits

/-- The number nearest to `num / den`; infinite if that is too large. -/
def nearest (num den : Nat) : Float := Float.ofBits (UInt64.ofNat (nearestBits num den))

end PageServer.Decimal
