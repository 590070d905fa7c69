/-
  PageServer.Proofs.Roundings — the shortest decimal of a number, and what it is read as.

  A number is `m · 2^q` with 53 bits in `m`, or with the smallest unit there is (`IsBinary`). The
  decimals that are rounded to it lie in an interval half a unit to either side; below a power of
  two, where the units of the next numbers are half as large, it is a quarter (`below`). The
  arithmetic here is over ℚ.
  (1) What lies in the interval is rounded to the number (`nearestBits_eq`). The only hard case is
      the quarter below a power of two: there the unit is already that of the smaller numbers, and
      the significand is rounded up to the next power.
  (2) The decimal that `Rounding.shortest` finds lies in the interval (`contains_shortest`): with 17
      digits half a step is too little to leave it (`half_step_lt`), so the search finds one.
  (3) No such decimal is so large or so small that it is read as infinity or zero without a look at
      its digits (`size_bounds`), so it is read as the number (`ofScientific_eq`).
-/

import Mathlib.Algebra.Order.Field.Power
import Mathlib.Data.Nat.Cast.Order.Field
import Mathlib.Data.Rat.Cast.Order
import Mathlib.Tactic.FieldSimp
import Mathlib.Tactic.Linarith
import Mathlib.Tactic.NormNum
import Mathlib.Tactic.Positivity
import Mathlib.Tactic.Ring
import PageServer.Decimal.Written

namespace PageServer.Decimal

/-! ## Fractions -/

/-- A power as the fraction that it is computed as. -/
theorem zpow_eq_div (base : Nat) (e : Int) :
    (base : ℚ) ^ e = (Nat.pow base e.toNat : ℚ) / Nat.pow base (-e).toNat := by
  obtain ⟨n, rfl | rfl⟩ := e.eq_nat_or_neg
  · simp
  · simp

theorem scaled_eq {num den : Nat} (q : Int) :
    ((num * Nat.pow 2 (-q).toNat : Nat) : ℚ) / (den * Nat.pow 2 q.toNat : Nat) = num / den / 2 ^ q := by
  rw [show (2 : ℚ) = (2 : Nat) from rfl, zpow_eq_div, div_div_div_eq]
  push_cast
  rfl

theorem tens_eq (n : Nat) (e : Int) :
    ((n * Nat.pow 10 e.toNat : Nat) : ℚ) / (Nat.pow 10 (-e).toNat : Nat) = n * 10 ^ e := by
  rw [show (10 : ℚ) = (10 : Nat) from rfl, zpow_eq_div]
  push_cast
  ring

/-- A fraction less than a half away from a whole number is rounded to it, and so is one that is a
    half away from an even number. -/
theorem roundHalfEven_eq {num den m : Nat} (hden : 0 < den) (hnear : |(num : ℚ) / den - m| ≤ 1 / 2)
    (hodd : m % 2 = 1 → |(num : ℚ) / den - m| < 1 / 2) : roundHalfEven num den = m := by
  have hden' : (0 : ℚ) < den := by exact_mod_cast hden
  have hdist : ((num : ℚ) / den - m) * den = num - m * den := by
    field_simp
  have hlow : 2 * (m * den) ≤ 2 * num + den := by
    have := mul_le_mul_of_nonneg_right (abs_le.mp hnear).1 hden'.le
    have : (2 * (m * den) : ℚ) ≤ 2 * num + den := by linarith
    exact_mod_cast this
  have hhigh : 2 * num ≤ 2 * (m * den) + den := by
    have := mul_le_mul_of_nonneg_right (abs_le.mp hnear).2 hden'.le
    have : (2 * num : ℚ) ≤ 2 * (m * den) + den := by linarith
    exact_mod_cast this
  have hstrict : m % 2 = 1 → 2 * (m * den) < 2 * num + den ∧ 2 * num < 2 * (m * den) + den := by
    intro h
    have hlow := mul_lt_mul_of_pos_right (abs_lt.mp (hodd h)).1 hden'
    have hhigh := mul_lt_mul_of_pos_right (abs_lt.mp (hodd h)).2 hden'
    have hlow' : (2 * (m * den) : ℚ) < 2 * num + den := by linarith
    have hhigh' : (2 * num : ℚ) < 2 * (m * den) + den := by linarith
    exact ⟨by exact_mod_cast hlow', by exact_mod_cast hhigh'⟩
  have hmod := Nat.mod_lt num hden
  have hdiv := Nat.div_add_mod num den
  rw [mul_comm] at hdiv
  unfold roundHalfEven
  generalize num / den = n at hdiv
  have hle : n ≤ m := by
    by_contra hlt
    have := Nat.mul_le_mul_right den (show m + 1 ≤ n by omega)
    rw [Nat.add_mul] at this
    omega
  have hge : m ≤ n + 1 := by
    by_contra hlt
    have := Nat.mul_le_mul_right den (show n + 2 ≤ m by omega)
    rw [Nat.add_mul] at this
    omega
  dsimp only
  obtain rfl | rfl : m = n ∨ m = n + 1 := by omega
  · rw [if_neg (by omega)]
  · rw [Nat.add_mul] at hlow hhigh hstrict
    rw [if_pos (by omega)]

/-- Between which powers of two a whole number lies. -/
theorem log2_bounds {n : Nat} (hn : 0 < n) :
    (2 : ℚ) ^ (n.log2 : Int) ≤ n ∧ (n : ℚ) < 2 ^ ((n.log2 : Int) + 1) := by
  have hlow := Nat.log2_self_le (Nat.pos_iff_ne_zero.mp hn)
  have hhigh := Nat.lt_log2_self (n := n)
  refine ⟨?_, ?_⟩
  · rw [zpow_natCast]
    exact_mod_cast hlow
  · rw [← Nat.cast_succ, zpow_natCast]
    exact_mod_cast hhigh

/-- The unit is that of the power of two below the number, unless it would be too small. -/
theorem unitExponent_spec {num den : Nat} (hnum : 0 < num) (hden : 0 < den) :
    ∃ e : Int, (2 : ℚ) ^ e ≤ num / den ∧ (num : ℚ) / den < 2 ^ (e + 1) ∧
      unitExponent num den = max (e - 52) minExponent := by
  obtain ⟨hnlow, hnhigh⟩ := log2_bounds hnum
  obtain ⟨hdlow, hdhigh⟩ := log2_bounds hden
  have hden' : (0 : ℚ) < den := by exact_mod_cast hden
  have hpos : ∀ n : Nat, (0 : ℚ) < Nat.pow 2 n := fun n => by exact_mod_cast Nat.two_pow_pos n
  generalize hk : (num.log2 : Int) - den.log2 = k
  have hreached : den * Nat.pow 2 k.toNat ≤ num * Nat.pow 2 (-k).toNat ↔ (2 : ℚ) ^ k ≤ num / den := by
    rw [show (2 : ℚ) = (2 : Nat) from rfl, zpow_eq_div, div_le_div_iff₀ (hpos _) hden']
    norm_cast
    rw [mul_comm den]
  have hupper : (num : ℚ) / den < 2 ^ (k + 1) := by
    rw [div_lt_iff₀ hden']
    calc (num : ℚ) < 2 ^ ((num.log2 : Int) + 1) := hnhigh
      _ = 2 ^ (k + 1) * 2 ^ (den.log2 : Int) := by rw [← zpow_add₀ (by norm_num)]; congr 1; omega
      _ ≤ 2 ^ (k + 1) * den := by gcongr
  have hlower : (2 : ℚ) ^ (k - 1) ≤ num / den := by
    rw [le_div_iff₀ hden']
    calc (2 : ℚ) ^ (k - 1) * den ≤ 2 ^ (k - 1) * 2 ^ ((den.log2 : Int) + 1) := by gcongr
      _ = 2 ^ (num.log2 : Int) := by rw [← zpow_add₀ (by norm_num)]; congr 1; omega
      _ ≤ num := hnlow
  unfold unitExponent
  rw [hk]
  dsimp only
  by_cases h : den * Nat.pow 2 k.toNat ≤ num * Nat.pow 2 (-k).toNat
  · exact ⟨k, hreached.mp h, hupper, by rw [if_pos h]⟩
  · refine ⟨k - 1, ?_, ?_, by rw [if_neg h, show k - 1 - 52 = k - 53 by omega]⟩
    · exact hlower
    · rw [sub_add_cancel]
      exact lt_of_not_ge fun hle => h (hreached.mpr hle)

/-! ## What is rounded to a number -/

/-- The significand and the exponent of a finite number: 53 bits, or the smallest unit. -/
structure IsBinary (m : Nat) (q : Int) : Prop where
  small : m < 2 ^ 53
  least : minExponent ≤ q
  most : q ≤ 971
  full : 2 ^ 52 ≤ m ∨ q = minExponent

/-- The decimal lies where decimals are rounded to the number. -/
def Rounding.Contains (r : Rounding) (v : ℚ) : Prop :=
  if r.closed then r.low ≤ v * r.unit ∧ v * r.unit ≤ r.high
  else r.low < v * r.unit ∧ v * r.unit < r.high

/-- The numbers that `m · 2^q` is nearest to. -/
def rounding (m : Nat) (q : Int) : Rounding := .ofBinary m q (m = 2 ^ 52 ∧ minExponent < q)

/-- How far below `m` they begin. -/
def below (m : Nat) (q : Int) : ℚ := if m = 2 ^ 52 ∧ minExponent < q then 1 / 4 else 1 / 2

theorem scale_pos (q : Int) : (0 : ℚ) < Nat.pow 2 (2 - q).toNat := by exact_mod_cast Nat.two_pow_pos _

theorem scale_eq (q : Int) : (Nat.pow 2 (q - 2).toNat : ℚ) = 2 ^ q / 4 * Nat.pow 2 (2 - q).toNat := by
  have h := zpow_eq_div 2 (q - 2)
  rw [neg_sub, eq_div_iff (scale_pos q).ne', zpow_sub₀ (by norm_num)] at h
  rw [← h]
  norm_num

theorem rounding_value (m : Nat) (q : Int) :
    ((rounding m q).value : ℚ) = m * 2 ^ q * (rounding m q).unit := by
  simp only [rounding, Rounding.ofBinary]
  push_cast
  rw [scale_eq]
  ring

theorem rounding_high (m : Nat) (q : Int) :
    ((rounding m q).high : ℚ) = (m + 1 / 2) * 2 ^ q * (rounding m q).unit := by
  simp only [rounding, Rounding.ofBinary]
  push_cast
  rw [scale_eq]
  ring

theorem rounding_low {m : Nat} (hm : 0 < m) (q : Int) :
    ((rounding m q).low : ℚ) = (m - below m q) * 2 ^ q * (rounding m q).unit := by
  have hcast : ((4 * m - if m = 2 ^ 52 ∧ minExponent < q then 1 else 2 : Nat) : ℚ) = 4 * (m - below m q) := by
    rw [below]
    split
    · rw [Nat.cast_sub (by omega)]
      push_cast
      ring
    · rw [Nat.cast_sub (by omega)]
      push_cast
      ring
  simp only [rounding, Rounding.ofBinary, decide_eq_true_eq]
  rw [Nat.cast_mul, hcast, scale_eq]
  ring

theorem rounding_closed (m : Nat) (q : Int) : (rounding m q).closed = decide (m % 2 = 0) := rfl

theorem rounding_unit_pos (m : Nat) (q : Int) : (0 : ℚ) < (rounding m q).unit := scale_pos q

/-- The ends belong to it if `m` is even. -/
theorem contains_rounding {m : Nat} {q : Int} (hm : 0 < m) {v : ℚ} :
    (rounding m q).Contains v ↔
      if m % 2 = 0 then (m - below m q) * 2 ^ q ≤ v ∧ v ≤ (m + 1 / 2) * 2 ^ q
      else (m - below m q) * 2 ^ q < v ∧ v < (m + 1 / 2) * 2 ^ q := by
  have hunit := rounding_unit_pos m q
  rw [Rounding.Contains, rounding_closed, rounding_low hm, rounding_high]
  simp only [decide_eq_true_eq, mul_le_mul_iff_left₀ hunit, mul_lt_mul_iff_left₀ hunit]

theorem below_le (m : Nat) (q : Int) : below m q ≤ 1 / 2 := by
  unfold below
  split <;> norm_num

/-- Where a number is rounded to a significand, and how many bits that leaves. -/
theorem contains_bounds {m : Nat} {q : Int} (hm : 0 < m) {v : ℚ} (h : (rounding m q).Contains v) :
    (m - below m q) * 2 ^ q ≤ v ∧ v ≤ (m + 1 / 2) * 2 ^ q ∧
      (m % 2 = 1 → (m - below m q) * 2 ^ q < v ∧ v < (m + 1 / 2) * 2 ^ q) := by
  rw [contains_rounding hm] at h
  split at h
  · rename_i heven
    exact ⟨h.1, h.2, fun hodd => by omega⟩
  · exact ⟨h.1.le, h.2.le, fun _ => h⟩

variable {m num den : Nat} {q : Int}

/-- The unit is that of the number. Only just below a power of two it is half as large. -/
theorem unitExponent_eq (hb : IsBinary m q) (hm : 0 < m) (hnum : 0 < num) (hden : 0 < den)
    (h : (rounding m q).Contains (num / den)) :
    unitExponent num den = q ∨
      unitExponent num den = q - 1 ∧ m = 2 ^ 52 ∧ minExponent < q ∧ (num : ℚ) / den < 2 ^ 52 * 2 ^ q := by
  obtain ⟨e, hlow, hhigh, hexp⟩ := unitExponent_spec hnum hden
  obtain ⟨hclose, hclose', -⟩ := contains_bounds hm h
  have hu : (0 : ℚ) < 2 ^ q := by positivity
  have hbelow := below_le m q
  have hm1 : (1 : ℚ) ≤ m := by exact_mod_cast hm
  have hm53 : (m : ℚ) + 1 ≤ 2 ^ 53 := by exact_mod_cast hb.small
  rw [hexp]
  have hpow : ∀ n : Int, (2 : ℚ) ^ (q + n) = 2 ^ n * 2 ^ q := fun n => by
    rw [add_comm, zpow_add₀ (by norm_num)]
  have hless : ∀ {a b : Int}, (2 : ℚ) ^ a < 2 ^ b → a < b := fun h =>
    (zpow_lt_zpow_iff_right₀ (by norm_num)).mp h
  -- from above: the number has no more than 53 bits, and half a unit does not make it more
  have hup : e < q + 53 := by
    refine hless (hlow.trans_lt (hclose'.trans_lt ?_))
    rw [hpow]
    exact mul_lt_mul_of_pos_right (by norm_num; linarith) hu
  by_cases hreach : q + 52 ≤ e
  · left
    have := hb.least
    omega
  have hsmall : (num : ℚ) / den < 2 ^ 52 * 2 ^ q := by
    refine hhigh.trans_le ?_
    rw [show (2 : ℚ) ^ 52 = 2 ^ (52 : Int) by norm_num, ← hpow]
    exact zpow_le_zpow_right₀ (by norm_num) (by omega)
  -- fewer bits than the significand has: that leaves the smallest unit, or the least significand there is
  rcases hb.full with hfull | hq
  · by_cases hq : q = minExponent
    · left
      omega
    right
    have hleast := hb.least
    have hm52 : m = 2 ^ 52 := by
      have := (mul_lt_mul_iff_left₀ hu).mp (hclose.trans_lt hsmall)
      have : (m : ℚ) < 2 ^ 52 + 1 := by linarith
      have : m < 2 ^ 52 + 1 := by exact_mod_cast this
      omega
    have hdown : q + 51 < e + 1 := by
      refine hless (lt_of_lt_of_le ?_ (hclose.trans hhigh.le))
      rw [hpow, hm52]
      refine mul_lt_mul_of_pos_right ?_ hu
      push_cast
      rw [hm52] at hbelow
      norm_num at hbelow ⊢
      linarith
    exact ⟨by omega, hm52, by omega, hsmall⟩
  · left
    omega

/-- The bits of a finite number, without its sign. -/
def bitsOf (m : Nat) (q : Int) : Nat := m + (q - minExponent).toNat * 2 ^ 52

theorem bitsOf_le (hb : IsBinary m q) : bitsOf m q ≤ infinityBits := by
  have hsmall := hb.small
  have hmost := hb.most
  have hleast := hb.least
  have hq : (q - minExponent).toNat ≤ 2045 := by
    rw [minExponent]
    omega
  rw [bitsOf, infinityBits]
  simp only [Nat.pow_eq]
  omega

/-- In units of the number. -/
theorem roundHalfEven_of_contains (hm : 0 < m) (hden : 0 < den) (h : (rounding m q).Contains (num / den)) :
    roundHalfEven (num * Nat.pow 2 (-q).toNat) (den * Nat.pow 2 q.toNat) = m := by
  obtain ⟨hclose, hclose', hstrict⟩ := contains_bounds hm h
  have hu : (0 : ℚ) < 2 ^ q := by positivity
  have hbelow := below_le m q
  refine roundHalfEven_eq (Nat.mul_pos hden (Nat.two_pow_pos _)) ?_ fun hodd => ?_
  · rw [scaled_eq, abs_le, le_sub_iff_add_le, sub_le_iff_le_add, le_div_iff₀ hu, div_le_iff₀ hu]
    refine ⟨(mul_le_mul_of_nonneg_right ?_ hu.le).trans hclose, hclose'.trans_eq (by ring)⟩
    linarith
  · obtain ⟨hlow, hhigh⟩ := hstrict hodd
    rw [scaled_eq, abs_lt, lt_sub_iff_add_lt, sub_lt_iff_lt_add, lt_div_iff₀ hu, div_lt_iff₀ hu]
    refine ⟨(mul_le_mul_of_nonneg_right ?_ hu.le).trans_lt hlow, hhigh.trans_eq (by ring)⟩
    linarith

/-- In units half as large, below a power of two. -/
theorem roundHalfEven_below (hden : 0 < den) (hq : minExponent < q) (hm : m = 2 ^ 52)
    (h : (rounding m q).Contains (num / den)) (hsmall : (num : ℚ) / den < 2 ^ 52 * 2 ^ q) :
    roundHalfEven (num * Nat.pow 2 (-(q - 1)).toNat) (den * Nat.pow 2 (q - 1).toNat) = 2 ^ 53 := by
  obtain ⟨hclose, -, -⟩ := contains_bounds (hm ▸ by decide) h
  have hhalf : (0 : ℚ) < 2 ^ (q - 1) := by positivity
  have htwice : (2 : ℚ) ^ q = 2 * 2 ^ (q - 1) := by
    rw [zpow_sub_one₀ (by norm_num)]
    ring
  refine roundHalfEven_eq (Nat.mul_pos hden (Nat.two_pow_pos _)) ?_ fun hodd => absurd hodd (by norm_num)
  rw [below, if_pos ⟨hm, hq⟩, hm, htwice] at hclose
  rw [htwice] at hsmall
  rw [scaled_eq, abs_le, le_sub_iff_add_le, sub_le_iff_le_add, le_div_iff₀ hhalf, div_le_iff₀ hhalf]
  push_cast at hclose ⊢
  exact ⟨by linarith, by linarith⟩

/-- What lies there is rounded to the number. -/
theorem nearestBits_eq (hb : IsBinary m q) (hm : 0 < m) (hden : 0 < den)
    (h : (rounding m q).Contains (num / den)) : nearestBits num den = bitsOf m q := by
  have hnum : 0 < num := by
    refine Nat.pos_of_ne_zero ?_
    rintro rfl
    have hlow := (contains_bounds hm h).1
    have hm1 : (1 : ℚ) ≤ m := by exact_mod_cast hm
    have hbelow := below_le m q
    rw [Nat.cast_zero, zero_div] at hlow
    have : (0 : ℚ) < (m - below m q) * 2 ^ q := mul_pos (by linarith) (by positivity)
    linarith
  rw [nearestBits, if_neg hnum.ne']
  dsimp only
  rcases unitExponent_eq hb hm hnum hden h with hexp | ⟨hexp, hm52, hq, hsmall⟩
  · rw [hexp, roundHalfEven_of_contains hm hden h]
    exact min_eq_left (bitsOf_le hb)
  · rw [hexp, roundHalfEven_below hden hq hm52 h hsmall]
    have hcarry : 2 ^ 53 + (q - 1 - minExponent).toNat * 2 ^ 52 = bitsOf m q := by
      rw [bitsOf, hm52, show (q - minExponent).toNat = (q - 1 - minExponent).toNat + 1 by omega]
      ring
    exact (congrArg (min · infinityBits) hcarry).trans (min_eq_left (bitsOf_le hb))

/-! ## The shortest decimal -/

theorem decimalLength_bounds {n : Nat} (hn : 0 < n) :
    10 ^ (decimalLength n - 1) ≤ n ∧ n < 10 ^ decimalLength n := by
  have hlen : ∀ {k}, 0 < k → (decimalLength n ≤ k ↔ n < 10 ^ k) := fun h =>
    Nat.length_toDigits_le_iff (by decide) h
  have hpos : 0 < decimalLength n := Nat.length_toDigits_pos
  refine ⟨?_, (hlen hpos).mp le_rfl⟩
  rcases Nat.eq_zero_or_pos (decimalLength n - 1) with h | h
  · rw [h]
    exact hn
  · exact not_lt.mp fun hlt => by
      have := (hlen h).mpr hlt
      omega

namespace Rounding

variable {r : Rounding} {e : Int}

theorem contains_of_lt {v : ℚ} (hlow : (r.low : ℚ) < v * r.unit) (hhigh : v * r.unit < r.high) :
    r.Contains v := by
  unfold Contains
  split
  · exact ⟨hlow.le, hhigh.le⟩
  · exact ⟨hlow, hhigh⟩

/-- The power of ten is not above the number. -/
theorem pow_magnitude_le (hvalue : 0 < r.value) (hunit : 0 < r.unit) :
    (10 : ℚ) ^ r.magnitude ≤ r.value / r.unit := by
  have hunit' : (0 : ℚ) < r.unit := by exact_mod_cast hunit
  have hvalue' : (0 : ℚ) < r.value := by exact_mod_cast hvalue
  unfold magnitude
  split
  · rename_i hle
    have hbounds := decimalLength_bounds (Nat.div_pos hle hunit)
    have hlen : 0 < decimalLength (r.value / r.unit) := Nat.length_toDigits_pos
    have hpow : (10 : ℚ) ^ (decimalLength (r.value / r.unit) - 1) ≤ (r.value / r.unit : Nat) := by
      exact_mod_cast hbounds.1
    rw [show (decimalLength (r.value / r.unit) : Int) - 1 = (decimalLength (r.value / r.unit) - 1 : Nat) by omega,
      zpow_natCast]
    exact hpow.trans Nat.cast_div_le
  · rename_i hlt
    dsimp only
    split
    · rename_i hreach
      rw [zpow_neg, zpow_natCast, inv_le_iff_one_le_mul₀ (by positivity), div_mul_eq_mul_div, one_le_div hunit']
      exact_mod_cast hreach
    · have hbounds := decimalLength_bounds (Nat.div_pos (not_le.mp hlt).le hvalue)
      rw [zpow_neg, zpow_natCast, inv_le_iff_one_le_mul₀ (by positivity), div_mul_eq_mul_div, one_le_div hunit']
      exact_mod_cast ((Nat.div_lt_iff_lt_mul hvalue).mp hbounds.2).le.trans_eq (mul_comm _ _)

/-- Whether a multiple of `10^e` rounds to the number. -/
def holds (r : Rounding) (e : Int) (d : Nat) : Bool :=
  let up := Nat.pow 10 (-e).toNat
  let x := d * (r.unit * Nat.pow 10 e.toNat)
  if r.closed then r.low * up ≤ x && x ≤ r.high * up else r.low * up < x && x < r.high * up

theorem holds_iff {d : Nat} : r.holds e d = true ↔ r.Contains (d * 10 ^ e) := by
  have hup : (0 : ℚ) < Nat.pow 10 (-e).toNat := by exact_mod_cast Nat.pow_pos (by decide)
  have hx : (d * 10 ^ e * r.unit : ℚ) =
      (d * (r.unit * Nat.pow 10 e.toNat) : Nat) / (Nat.pow 10 (-e).toNat : Nat) := by
    rw [← Nat.mul_assoc, tens_eq]
    push_cast
    ring
  unfold holds Contains
  rw [hx]
  split
  · rw [le_div_iff₀ hup, div_le_iff₀ hup]
    norm_cast
    simp
  · rw [lt_div_iff₀ hup, div_lt_iff₀ hup]
    norm_cast
    simp

theorem contains_of_onGrid? {s : Scientific} (h : r.onGrid? e = some s) :
    r.Contains (s.digits * 10 ^ s.exponent) := by
  unfold onGrid? at h
  dsimp only at h
  split at h
  · rename_i hbelow habove
    cases h
    dsimp only
    split
    · exact holds_iff.mp hbelow
    · exact holds_iff.mp habove
  · rename_i hbelow _
    cases h
    exact holds_iff.mp hbelow
  · rename_i _ habove
    cases h
    exact holds_iff.mp habove
  · cases h

/-- If half a step is too little to leave the interval, one of the neighbours lies in it. -/
theorem onGrid?_isSome (hunit : 0 < r.unit) (hlow : (r.low : ℚ) + 10 ^ e / 2 * r.unit < r.value)
    (hhigh : (r.value : ℚ) + 10 ^ e / 2 * r.unit < r.high) : (r.onGrid? e).isSome = true := by
  generalize hn : r.value * Nat.pow 10 (-e).toNat / (r.unit * Nat.pow 10 e.toNat) = n
  have hunit' : (0 : ℚ) < r.unit := by exact_mod_cast hunit
  have hup : (0 : ℚ) < Nat.pow 10 (-e).toNat := by exact_mod_cast Nat.pow_pos (by decide)
  have hstep : 0 < r.unit * Nat.pow 10 e.toNat := Nat.mul_pos hunit (Nat.pow_pos (by decide))
  have hgrid : (10 : ℚ) ^ e * r.unit =
      (r.unit * Nat.pow 10 e.toNat : Nat) / (Nat.pow 10 (-e).toNat : Nat) := by
    rw [tens_eq, mul_comm]
  have hbelow : (n : ℚ) * 10 ^ e * r.unit ≤ r.value := by
    rw [mul_assoc, hgrid, mul_div_assoc', div_le_iff₀ hup]
    exact_mod_cast hn ▸ Nat.div_mul_le_self _ _
  have habove : (r.value : ℚ) < (n + 1) * 10 ^ e * r.unit := by
    rw [mul_assoc, hgrid, mul_div_assoc', lt_div_iff₀ hup]
    exact_mod_cast (Nat.div_lt_iff_lt_mul hstep).mp (by omega)
  have hpos : (0 : ℚ) < 10 ^ e * r.unit := by positivity
  have hholds : r.holds e n = true ∨ r.holds e (n + 1) = true := by
    rcases le_total ((r.value : ℚ) - n * 10 ^ e * r.unit) (10 ^ e / 2 * r.unit) with hnear | hfar
    · exact .inl (holds_iff.mpr (contains_of_lt (by linarith) (by linarith)))
    · refine .inr (holds_iff.mpr (contains_of_lt ?_ ?_))
      · push_cast
        linarith
      · push_cast
        linarith
  subst hn
  unfold onGrid?
  dsimp only
  split
  · rfl
  · rfl
  · rfl
  · rename_i hnot hnot'
    rcases hholds with hholds | hholds
    · exact absurd (hholds.symm.trans hnot) (by decide)
    · exact absurd (hholds.symm.trans hnot') (by decide)

end Rounding

/-- With 17 digits a step is less than the distance between two numbers. -/
theorem half_step_lt (hb : IsBinary m q) {step : ℚ} (hstep : step * 10 ^ 16 ≤ m * 2 ^ q) :
    step / 2 < below m q * 2 ^ q := by
  have hu : (0 : ℚ) < 2 ^ q := by positivity
  have hsmall : (m : ℚ) / (2 * 10 ^ 16) < below m q := by
    have hm53 : (m : ℚ) < 2 ^ 53 := by exact_mod_cast hb.small
    unfold below
    split
    · rename_i h
      rw [h.1]
      norm_num
    · rw [div_lt_iff₀ (by norm_num)]
      norm_num at hm53 ⊢
      linarith
  have := mul_lt_mul_of_pos_right hsmall hu
  rw [div_mul_eq_mul_div, div_lt_iff₀ (by norm_num)] at this
  linarith

theorem contains_shortest (hb : IsBinary m q) (hm : 0 < m) :
    (rounding m q).Contains ((rounding m q).shortest.digits * 10 ^ (rounding m q).shortest.exponent) := by
  have hu : (0 : ℚ) < 2 ^ q := by positivity
  have hunit := rounding_unit_pos m q
  have hm' : (0 : ℚ) < m := by exact_mod_cast hm
  have hvalue : 0 < (rounding m q).value := by
    have : (0 : ℚ) < (rounding m q).value := by
      rw [rounding_value]
      positivity
    exact_mod_cast this
  have hmagnitude := Rounding.pow_magnitude_le hvalue (by exact_mod_cast hunit)
  rw [rounding_value, mul_div_assoc, div_self hunit.ne', mul_one] at hmagnitude
  have hstep : (10 : ℚ) ^ ((rounding m q).magnitude - (16 : Nat)) * 10 ^ 16 ≤ m * 2 ^ q := by
    rw [zpow_sub₀ (by norm_num), zpow_natCast, div_mul_cancel₀ _ (by norm_num)]
    exact hmagnitude
  have hhalf := half_step_lt hb hstep
  have hbelow := mul_le_mul_of_nonneg_right (below_le m q) hu.le
  -- the search looks no further than 17 digits, where it finds a neighbour at the latest
  have hlast : ((rounding m q).onGrid? ((rounding m q).magnitude - (16 : Nat))).isSome = true := by
    refine Rounding.onGrid?_isSome (by exact_mod_cast hunit) ?_ ?_
    · rw [rounding_low hm, rounding_value, ← add_mul]
      refine mul_lt_mul_of_pos_right ?_ hunit
      linarith
    · rw [rounding_high, rounding_value, ← add_mul]
      refine mul_lt_mul_of_pos_right ?_ hunit
      linarith
  obtain ⟨s, hs⟩ : ∃ s, (List.range 17).findSome? (fun n : Nat =>
      (rounding m q).onGrid? ((rounding m q).magnitude - n)) = some s :=
    Option.isSome_iff_exists.mp (List.findSome?_isSome_iff.mpr ⟨16, List.mem_range.mpr (by decide), hlast⟩)
  obtain ⟨n, -, hn⟩ := List.exists_of_findSome?_eq_some hs
  have hshortest : (rounding m q).shortest = s := by
    unfold Rounding.shortest
    dsimp only
    rw [hs]
    rfl
  rw [hshortest]
  exact Rounding.contains_of_onGrid? hn

theorem two_pow_lt : (2 : ℚ) ^ (1075 : Int) < 10 ^ (400 : Int) := by
  rw [show (1075 : Int) = (43 * 25 : Nat) from rfl, show (400 : Int) = (16 * 25 : Nat) from rfl,
    zpow_natCast, zpow_natCast, pow_mul, pow_mul]
  exact pow_lt_pow_left₀ (by norm_num) (by norm_num) (by norm_num)

/-- The sizes that are taken for zero or for infinity are far away. -/
theorem size_bounds (hb : IsBinary m q) (hm : 0 < m) {digits : Nat} {e : Int} (hdigits : 0 < digits)
    (h : (rounding m q).Contains (digits * 10 ^ e)) :
    -400 ≤ e + decimalLength digits ∧ e + decimalLength digits ≤ 400 := by
  obtain ⟨hclose, hclose', -⟩ := contains_bounds hm h
  have hbelow := below_le m q
  have hm1 : (1 : ℚ) ≤ m := by exact_mod_cast hm
  have hm53 : (m : ℚ) + 1 ≤ 2 ^ 53 := by exact_mod_cast hb.small
  obtain ⟨hlen, hlen'⟩ := decimalLength_bounds hdigits
  have hlenpos : 0 < decimalLength digits := Nat.length_toDigits_pos
  have hless : ∀ {a b : Int}, (10 : ℚ) ^ a < 10 ^ b → a < b := fun h =>
    (zpow_lt_zpow_iff_right₀ (by norm_num)).mp h
  have hpos : (0 : ℚ) < 10 ^ e := by positivity
  constructor
  · refine (hless ?_).le
    calc (10 : ℚ) ^ (-400 : Int) < 2 ^ (-1075 : Int) := by
          rw [zpow_neg, zpow_neg]
          exact inv_strictAnti₀ (by positivity) two_pow_lt
      _ = 1 / 2 * 2 ^ (-1074 : Int) := by
        rw [show (-1075 : Int) = -1 + -1074 from rfl, zpow_add₀ (by norm_num)]
        norm_num
      _ ≤ (m - below m q) * 2 ^ q :=
        mul_le_mul (by linarith) (zpow_le_zpow_right₀ (by norm_num) hb.least) (by positivity) (by linarith)
      _ ≤ digits * 10 ^ e := hclose
      _ < 10 ^ decimalLength digits * 10 ^ e := mul_lt_mul_of_pos_right (by exact_mod_cast hlen') hpos
      _ = 10 ^ (e + decimalLength digits) := by
        rw [← zpow_natCast, ← zpow_add₀ (by norm_num), add_comm]
  · suffices e + decimalLength digits - 1 < 400 by omega
    refine hless ?_
    calc (10 : ℚ) ^ (e + decimalLength digits - 1) = 10 ^ (decimalLength digits - 1) * 10 ^ e := by
          rw [← zpow_natCast, ← zpow_add₀ (by norm_num)]
          congr 1
          omega
      _ ≤ digits * 10 ^ e := mul_le_mul_of_nonneg_right (by exact_mod_cast hlen) hpos.le
      _ ≤ (m + 1 / 2) * 2 ^ q := hclose'
      _ ≤ 2 ^ (53 : Int) * 2 ^ (971 : Int) := by
        refine mul_le_mul ?_ (zpow_le_zpow_right₀ (by norm_num) hb.most) (by positivity) (by positivity)
        norm_num at hm53 ⊢
        linarith
      _ = 2 ^ (1024 : Int) := by rw [← zpow_add₀ (by norm_num)]; rfl
      _ ≤ 2 ^ (1075 : Int) := zpow_le_zpow_right₀ (by norm_num) (by norm_num)
      _ < 10 ^ (400 : Int) := two_pow_lt

/-- Such a decimal is read as the number. -/
theorem ofScientific_eq (hb : IsBinary m q) (hm : 0 < m) {digits : Nat} {e : Int} (hdigits : 0 < digits)
    (h : (rounding m q).Contains (digits * 10 ^ e)) :
    ofScientific digits e = Float.ofBits (UInt64.ofNat (bitsOf m q)) := by
  obtain ⟨hlow, hhigh⟩ := size_bounds hb hm hdigits h
  unfold ofScientific
  dsimp only
  rw [if_neg (by omega), if_neg (by omega), nearest,
    nearestBits_eq hb hm (show 0 < Nat.pow 10 (-e).toNat from Nat.pow_pos (by decide)) (by rwa [tens_eq])]

end PageServer.Decimal
