/-
  PageServer.Proofs.FloatBits — finite numbers and their bits.

  A number comes apart into a sign, an exponent and a mantissa. Unless it is no number at all, it has
  the bits that it was made from (`toBits_ofBits`), and the minus sign changes the topmost bit alone
  (`toBits_neg`). So a finite number is its sign and the bits below it (`ofBits_of_isFinite`).
-/

import Mathlib
import PageServer.Decimal.Shortest

namespace PageServer.Decimal

open Float.Model Float.Model.UnpackedFloat

variable {x y : Float} {b : BitVec Format.binary64.numBits}

theorem toNat_packComponents (s : Sign) (e : BitVec 11) (m : BitVec 52) :
    (packComponents .binary64 s e m).toNat =
      s.toBitVec.toNat * 2 ^ 63 + e.toNat * 2 ^ 52 + m.toNat := by
  unfold packComponents
  rw [BitVec.toNat_append, BitVec.toNat_append, ← Nat.shiftLeft_add_eq_or_of_lt m.isLt,
    ← Nat.shiftLeft_add_eq_or_of_lt e.isLt, Nat.shiftLeft_eq, Nat.shiftLeft_eq]
  ring

theorem toNat_unpackMantissa (b : BitVec Format.binary64.numBits) :
    (unpackMantissa b).toNat = b.toNat % 2 ^ 52 := by
  simp [unpackMantissa]

theorem toNat_unpackExponent (b : BitVec Format.binary64.numBits) :
    (unpackExponent b).toNat = b.toNat / 2 ^ 52 % 2 ^ 11 := by
  simp [unpackExponent, Nat.shiftRight_eq_div_pow]

theorem toNat_unpackSign (b : BitVec Format.binary64.numBits) :
    (unpackSign b).toNat = b.toNat / 2 ^ 63 % 2 := by
  simp [unpackSign, Nat.shiftRight_eq_div_pow]

/-- The exponent of what is not finite. -/
theorem unpackExponent_eq_iff (b : BitVec Format.binary64.numBits) :
    unpackExponent b = -1#_ ↔ b.toNat / 2 ^ 52 % 2 ^ 11 = 2047 := by
  rw [← BitVec.toNat_inj, toNat_unpackExponent]
  rfl

theorem pack_unpack_of_exponent (h : unpackExponent b ≠ -1#_) : (unpack .binary64 b).pack .binary64 = b := by
  have hnumber : isNaNBits b = false := decide_eq_false fun hnan => h hnan.1
  rw [pack_unpack b, hnumber, if_neg Bool.false_ne_true]

/-- The minus sign changes the sign bit. -/
theorem neg_unpack (b : BitVec Format.binary64.numBits) :
    (unpack .binary64 b).neg = unpack .binary64
      (packComponents .binary64 (-Sign.ofBitVec (unpackSign b)) (unpackExponent b) (unpackMantissa b)) := by
  unfold UnpackedFloat.unpack
  simp only [unpackSign_packComponents, unpackExponent_packComponents, unpackMantissa_packComponents,
    Sign.ofBitVec_toBitVec]
  split
  · split <;> rfl
  · split
    · split <;> rfl
    · rfl

theorem eq_of_toBits (h : x.toBits.toNat = y.toBits.toNat) : x = y := Float.toBits_inj.mp (UInt64.toNat_inj.mp h)

theorem isFinite_iff : x.isFinite = true ↔ x.toBits.toNat / 2 ^ 52 % 2 ^ 11 ≠ 2047 := by
  rw [ne_eq, ← UInt64.toNat_toBitVec, ← unpackExponent_eq_iff x.toBits.toBitVec]
  change (UnpackedFloat.unpack .binary64 x.toBits.toBitVec).isFinite = true ↔ _
  unfold UnpackedFloat.unpack
  dsimp only
  split
  · rename_i hinf
    split <;> exact iff_of_false Bool.false_ne_true (not_not_intro hinf)
  · rename_i hfinite
    split
    · split <;> exact iff_of_true rfl hfinite
    · exact iff_of_true rfl hfinite

theorem toBits_ofBits {n : Nat} (h : n < 2 ^ 64) (hn : n / 2 ^ 52 % 2 ^ 11 ≠ 2047) :
    (Float.ofBits (UInt64.ofNat n)).toBits.toNat = n := by
  have hexp : @unpackExponent .binary64 (UInt64.ofNat n).toBitVec ≠ -1#_ := by
    rwa [ne_eq, unpackExponent_eq_iff, UInt64.toNat_toBitVec, UInt64.toNat_ofNat_of_lt' h]
  change (UnpackedFloat.pack .binary64 (UnpackedFloat.unpack .binary64 (UInt64.ofNat n).toBitVec)).toNat = n
  rw [pack_unpack_of_exponent hexp, UInt64.toNat_toBitVec, UInt64.toNat_ofNat_of_lt' h]

theorem toBits_neg (hx : x.isFinite = true) (hpos : isNegative x = false) :
    (-x).toBits.toNat = 2 ^ 63 + x.toBits.toNat := by
  have hexp : @unpackExponent .binary64 x.toBits.toBitVec ≠ -1#_ := by
    rw [ne_eq, unpackExponent_eq_iff, UInt64.toNat_toBitVec]
    exact isFinite_iff.mp hx
  have hlt : x.toBits.toNat < 2 ^ 63 := by simpa [isNegative] using hpos
  have hsign : @unpackSign .binary64 x.toBits.toBitVec = 0#1 := by
    rw [← BitVec.toNat_inj, toNat_unpackSign, UInt64.toNat_toBitVec, Nat.div_eq_of_lt hlt]
    rfl
  change (UnpackedFloat.pack .binary64 (UnpackedFloat.unpack .binary64 x.toBits.toBitVec).neg).toNat = _
  rw [neg_unpack, pack_unpack_of_exponent (by rwa [unpackExponent_packComponents]), hsign, toNat_packComponents,
    toNat_unpackExponent, toNat_unpackMantissa, UInt64.toNat_toBitVec]
  change 1 * 2 ^ 63 + _ + _ = _
  omega

/-- A finite number is put together from its sign and the rest of its bits. -/
theorem ofBits_of_isFinite (hx : x.isFinite = true) :
    (if isNegative x then -Float.ofBits (UInt64.ofNat (x.toBits.toNat % 2 ^ 63))
      else Float.ofBits (UInt64.ofNat (x.toBits.toNat % 2 ^ 63))) = x := by
  have hexp := isFinite_iff.mp hx
  have hlt := x.toBits.toNat_lt
  have hbits := toBits_ofBits (n := x.toBits.toNat % 2 ^ 63) (by omega) (by omega)
  refine eq_of_toBits ?_
  split
  · rename_i hneg
    have hge : 2 ^ 63 ≤ x.toBits.toNat := by simpa [isNegative] using hneg
    have hpos : (Float.ofBits (UInt64.ofNat (x.toBits.toNat % 2 ^ 63))).toBits.toNat < 2 ^ 63 := by
      rw [hbits]
      omega
    rw [toBits_neg (isFinite_iff.mpr (by rw [hbits]; omega)) (decide_eq_false (not_le.mpr hpos)), hbits]
    omega
  · rename_i hneg
    have hlt : x.toBits.toNat < 2 ^ 63 := by simpa [isNegative] using hneg
    rw [hbits, Nat.mod_eq_of_lt hlt]

end PageServer.Decimal
