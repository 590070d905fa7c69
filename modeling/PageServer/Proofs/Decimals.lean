/-
  PageServer.Proofs.Decimals — a number is read from the text it is written as.

  A finite number is written with the digits of its shortest decimal, a point among them or a point
  and a zero after them (`textWithPoint_eq`). The digits and the place of the point are those of the
  decimal (`Scientific.value_parts`), the decimal is rounded to the number, and so its text is read as
  the number (`read?_textWithPoint`); a zero keeps its sign.
-/

import PageServer.Proofs.AddressTexts
import PageServer.Proofs.FloatBits
import PageServer.Proofs.Roundings

namespace PageServer.Decimal

variable {x : Float}

theorem minExponent_eq : minExponent = -1074 := rfl

theorem significand_spec (hx : x.isFinite = true) :
    IsBinary (significand x).1 (significand x).2 ∧
      bitsOf (significand x).1 (significand x).2 = x.toBits.toNat % 2 ^ 63 := by
  have hexp := isFinite_iff.mp hx
  generalize hbits : x.toBits.toNat = bits at *
  unfold significand
  rw [hbits]
  simp only [Nat.pow_eq]
  split
  · refine ⟨⟨?_, ?_, ?_, .inr minExponent_eq.symm⟩, ?_⟩
    · omega
    · exact minExponent_eq.le
    · norm_num
    · rw [bitsOf, minExponent_eq]
      omega
  · refine ⟨⟨?_, ?_, ?_, .inl ?_⟩, ?_⟩
    · omega
    · rw [minExponent_eq]
      omega
    · omega
    · omega
    · rw [bitsOf, minExponent_eq]
      omega

/-- No trailing zero is kept, and the number stays the same. -/
theorem shortest_of_ne_zero (hm : (significand x).1 ≠ 0) :
    shortest x =
      let s := (rounding (significand x).1 (significand x).2).shortest
      if s.digits % 10 = 0 then ⟨s.digits / 10, s.exponent + 1⟩ else s := by
  unfold shortest
  dsimp only
  rw [if_neg hm]
  rfl

theorem shortest_spec (hx : x.isFinite = true) (hm : (significand x).1 ≠ 0) :
    0 < (shortest x).digits ∧ (rounding (significand x).1 (significand x).2).Contains
      ((shortest x).digits * 10 ^ (shortest x).exponent) := by
  have hpos := Nat.pos_of_ne_zero hm
  have hcontains := contains_shortest (significand_spec hx).1 hpos
  have hvalue : ((shortest x).digits * 10 ^ (shortest x).exponent : ℚ) =
      (rounding (significand x).1 (significand x).2).shortest.digits *
        10 ^ (rounding (significand x).1 (significand x).2).shortest.exponent := by
    rw [shortest_of_ne_zero hm]
    dsimp only
    split
    · rename_i hzero
      have hdigits : (rounding (significand x).1 (significand x).2).shortest.digits =
          10 * ((rounding (significand x).1 (significand x).2).shortest.digits / 10) := by omega
      conv_rhs => rw [hdigits]
      rw [zpow_add₀ (by norm_num)]
      push_cast
      ring
    · rfl
  rw [hvalue]
  refine ⟨Nat.pos_of_ne_zero fun hzero => ?_, hcontains⟩
  have hclose := (contains_bounds hpos hcontains).1
  rw [← hvalue, hzero, Nat.cast_zero, zero_mul] at hclose
  have hbelow := below_le (significand x).1 (significand x).2
  have hm1 : (1 : ℚ) ≤ (significand x).1 := by exact_mod_cast hpos
  have : (0 : ℚ) < ((significand x).1 - below (significand x).1 (significand x).2) * 2 ^ (significand x).2 :=
    mul_pos (by linarith) (by positivity)
  linarith

/-! ## Digits -/

theorem natOfDigits_eq (ds : List Char) : natOfDigits ds = Nat.ofDigitChars 10 ds 0 := by
  unfold natOfDigits Nat.ofDigitChars
  congr 1
  funext n c
  rw [Nat.mul_comm]
  rfl

theorem natOfDigits_toDigits (n : Nat) : natOfDigits (Nat.toDigits 10 n) = n := by
  rw [natOfDigits_eq, Nat.ofDigitChars_ten_toDigits]

theorem natOfDigits_append_zeros (ds : List Char) (n : Nat) :
    natOfDigits (ds ++ zeros n) = natOfDigits ds * 10 ^ n := by
  induction n with
  | zero => simp [zeros]
  | succ n ih =>
    rw [zeros, List.replicate_succ', ← List.append_assoc, natOfDigits, List.foldl_append, ← natOfDigits, ← zeros,
      ih]
    change natOfDigits ds * 10 ^ n * 10 + 0 = _
    rw [pow_succ]
    ring

theorem natOfDigits_zeros_append (ds : List Char) (n : Nat) : natOfDigits (zeros n ++ ds) = natOfDigits ds := by
  induction n with
  | zero => rfl
  | succ n ih => exact ih

theorem isDigit_zeros {n : Nat} {c : Char} (hc : c ∈ zeros n) : c.isDigit = true := by
  rw [List.eq_of_mem_replicate hc]
  rfl

/-! ## Texts -/

/-- The digits before and after the point. -/
def Scientific.parts (s : Scientific) : List Char × List Char :=
  let ds := Nat.toDigits 10 s.digits
  if 0 ≤ s.exponent then (ds ++ zeros s.exponent.toNat, ['0'])
  else
    let places := (-s.exponent).toNat
    if places < ds.length then (ds.take (ds.length - places), ds.drop (ds.length - places))
    else (['0'], zeros (places - ds.length) ++ ds)

theorem Scientific.isDigit_parts (s : Scientific) :
    (∀ c ∈ s.parts.1, c.isDigit = true) ∧ ∀ c ∈ s.parts.2, c.isDigit = true := by
  have hdigits : ∀ c ∈ Nat.toDigits 10 s.digits, c.isDigit = true := fun _ => Text.isDigit_toDigits
  unfold parts
  dsimp only
  split
  · refine ⟨fun c hc => ?_, List.forall_mem_singleton.mpr rfl⟩
    rcases List.mem_append.mp hc with hc | hc
    · exact hdigits c hc
    · exact isDigit_zeros hc
  · split
    · exact ⟨fun c hc => hdigits c (List.mem_of_mem_take hc), fun c hc => hdigits c (List.mem_of_mem_drop hc)⟩
    · refine ⟨List.forall_mem_singleton.mpr rfl, fun c hc => ?_⟩
      rcases List.mem_append.mp hc with hc | hc
      · exact isDigit_zeros hc
      · exact hdigits c hc

theorem Scientific.parts_ne_nil (s : Scientific) : s.parts.1 ≠ [] := by
  have hlen : 0 < (Nat.toDigits 10 s.digits).length := Nat.length_toDigits_pos
  unfold parts
  dsimp only
  split
  · simp
  · split
    · exact List.ne_nil_of_length_pos (by rw [List.length_take]; omega)
    · simp

/-- The parts are those of the decimal. -/
theorem Scientific.value_parts (s : Scientific) :
    (natOfDigits (s.parts.1 ++ s.parts.2) * 10 ^ (-(s.parts.2.length : Int)) : ℚ) =
      s.digits * 10 ^ s.exponent := by
  unfold parts
  dsimp only
  split
  · rename_i hexp
    rw [show ['0'] = zeros 1 from rfl, natOfDigits_append_zeros, natOfDigits_append_zeros, natOfDigits_toDigits]
    obtain ⟨n, hn⟩ := Int.eq_ofNat_of_zero_le hexp
    rw [hn]
    simp [zeros]
  · rename_i hexp
    have hlen : 0 < (Nat.toDigits 10 s.digits).length := Nat.length_toDigits_pos
    split
    · rename_i hlt
      rw [List.take_append_drop, natOfDigits_toDigits, List.length_drop]
      congr 2
      omega
    · rw [show ['0'] = zeros 1 from rfl, natOfDigits_zeros_append, natOfDigits_zeros_append, natOfDigits_toDigits,
        List.length_append, zeros, List.length_replicate]
      congr 2
      omega

theorem Scientific.positional_eq (s : Scientific) :
    s.positional = (if 0 ≤ s.exponent then s.parts.1 else s.parts.1 ++ '.' :: s.parts.2) := by
  unfold positional parts
  dsimp only
  split
  · rfl
  · split <;> rfl

theorem Scientific.parts_of_nonneg {s : Scientific} (h : 0 ≤ s.exponent) : s.parts.2 = ['0'] := by
  unfold parts
  dsimp only
  rw [if_pos h]

theorem isNaN_of_isFinite (hx : x.isFinite = true) : x.isNaN = false := by
  change (x.toModel.unpack).isNaN = false
  change (x.toModel.unpack).isFinite = true at hx
  cases h : x.toModel.unpack <;> rw [h] at hx <;> first | rfl | cases hx

theorem isInf_of_isFinite (hx : x.isFinite = true) : x.isInf = false := by
  change (x.toModel.unpack).isInf = false
  change (x.toModel.unpack).isFinite = true at hx
  cases h : x.toModel.unpack <;> rw [h] at hx <;> first | rfl | cases hx

theorem signed_toList (s : List Char) : (signed x s).toList = (if isNegative x then ['-'] else []) ++ s := by
  rw [signed, String.toList_ofList]
  split <;> rfl

/-- A finite number is written with digits, a point, and digits. -/
theorem textWithPoint_eq (hx : x.isFinite = true) :
    (textWithPoint x).toList =
      (if isNegative x then ['-'] else []) ++ ((shortest x).parts.1 ++ '.' :: (shortest x).parts.2) := by
  have htext : text x = signed x (shortest x).positional := by
    rw [text, isNaN_of_isFinite hx, isInf_of_isFinite hx]
    rfl
  have hpositional := (shortest x).positional_eq
  unfold textWithPoint
  dsimp only
  rw [isNaN_of_isFinite hx, isInf_of_isFinite hx, htext, hpositional]
  by_cases hexp : 0 ≤ (shortest x).exponent
  · have hpoint : (signed x (shortest x).parts.1).toList.contains '.' = false := by
      rw [signed_toList, Bool.eq_false_iff, ne_eq, List.contains_iff_mem]
      intro hmem
      rcases List.mem_append.mp hmem with hmem | hmem
      · split at hmem <;> simp at hmem
      · exact absurd ((shortest x).isDigit_parts.1 _ hmem) (by decide)
    rw [if_pos hexp, hpoint, Scientific.parts_of_nonneg hexp]
    simp [signed_toList]
  · have hpoint : (signed x ((shortest x).parts.1 ++ '.' :: (shortest x).parts.2)).toList.contains '.' = true := by
      rw [signed_toList]
      simp
    rw [if_neg hexp, hpoint]
    simp [signed_toList]

/-! ## Reading -/

theorem toLower_of_isDigit {c : Char} (hc : c.isDigit = true) : c.toLower = c := by
  simp only [Char.isDigit, Bool.and_eq_true, decide_eq_true_eq, ge_iff_le, UInt32.le_iff_toNat_le] at hc
  unfold Char.toLower
  rw [dif_neg]
  simp only [ge_iff_le, UInt32.le_iff_toNat_le, not_and, not_le]
  intro h
  have := hc.2
  simp at this h ⊢
  omega

/-- A number does not begin like a name. -/
theorem ne_name {ds rest : List Char} {name : String} (h : ∀ c ∈ ds, c.isDigit = true) (hne : ds ≠ [])
    (hname : name.toList.head?.all (!·.isDigit) = true) :
    String.ofList ((ds ++ rest).map Char.toLower) ≠ name := by
  rintro rfl
  cases ds with
  | nil => exact hne rfl
  | cons c ds =>
    have hc := h c List.mem_cons_self
    have hlower : c.toLower = c := toLower_of_isDigit hc
    rw [String.toList_ofList, List.cons_append, List.map_cons, List.head?_cons, Option.all_some, hlower, hc] at hname
    cases hname

theorem readUnsigned?_eq {whole places : List Char} (hwhole : ∀ c ∈ whole, c.isDigit = true) (hne : whole ≠ [])
    (hplaces : ∀ c ∈ places, c.isDigit = true) :
    readUnsigned? (whole ++ '.' :: places) =
      some (ofScientific (natOfDigits (whole ++ places)) (-(places.length : Int))) := by
  obtain ⟨htake, hdrop⟩ := Text.taken_append hwhole (show ∀ c ∈ ('.' :: places).head?, c.isDigit = false by simp)
  have htake' : places.takeWhile Char.isDigit = places := List.takeWhile_eq_self_iff.mpr hplaces
  have hdrop' : places.dropWhile Char.isDigit = [] := List.dropWhile_eq_nil_iff.mpr hplaces
  have hname : ∀ {name : String}, name.toList.head?.all (!·.isDigit) = true →
      String.ofList ((whole ++ '.' :: places).map Char.toLower) ≠ name := ne_name hwhole hne
  unfold readUnsigned?
  simp only [htake, hdrop, htake', hdrop']
  rw [if_neg (not_or.mpr ⟨hname (by decide), hname (by decide)⟩), if_neg (hname (by decide)), if_neg (by simp [hne])]
  simp [readExponent?]

theorem zero_eq : (0.0 : Float) = Float.ofBits (UInt64.ofNat 0) := eq_of_toBits (by decide +kernel)

/-- The shortest decimal of a number is read as the number without its sign. -/
theorem readUnsigned?_parts (hx : x.isFinite = true) :
    readUnsigned? ((shortest x).parts.1 ++ '.' :: (shortest x).parts.2) =
      some (Float.ofBits (UInt64.ofNat (x.toBits.toNat % 2 ^ 63))) := by
  obtain ⟨hb, hbits⟩ := significand_spec hx
  have hvalue := (shortest x).value_parts
  rw [readUnsigned?_eq (shortest x).isDigit_parts.1 (shortest x).parts_ne_nil (shortest x).isDigit_parts.2, ← hbits]
  generalize natOfDigits ((shortest x).parts.1 ++ (shortest x).parts.2) = digits at *
  -- zero is not among the numbers with an interval of decimals
  by_cases hm : (significand x).1 = 0
  · have hzero : digits = 0 := by
      have hshortest : shortest x = ⟨0, 0⟩ := by
        unfold shortest
        dsimp only
        rw [if_pos hm]
      rw [hshortest, Nat.cast_zero, zero_mul, mul_eq_zero] at hvalue
      exact_mod_cast hvalue.resolve_right (by positivity)
    have hq : (significand x).2 = minExponent := hb.full.resolve_left (by omega)
    rw [hzero, bitsOf, hm, hq, ofScientific, if_pos (.inl rfl), zero_eq, sub_self]
    rfl
  · obtain ⟨hdigits, hcontains⟩ := shortest_spec hx hm
    rw [← hvalue] at hcontains
    have hpos : 0 < digits := by
      have : (0 : ℚ) < (shortest x).digits * 10 ^ (shortest x).exponent := by positivity
      rw [← hvalue] at this
      exact_mod_cast pos_of_mul_pos_left this (by positivity)
    rw [ofScientific_eq hb (Nat.pos_of_ne_zero hm) hpos hcontains]

/-- The text of a finite number is read as the number. -/
theorem read?_textWithPoint (hx : x.isFinite = true) : read? (textWithPoint x).toList = some x := by
  have hread := readUnsigned?_parts hx
  have hwhole := ofBits_of_isFinite hx
  rw [textWithPoint_eq hx]
  split at hwhole
  · rename_i hneg
    rw [if_pos hneg]
    change (readUnsigned? ((shortest x).parts.1 ++ '.' :: (shortest x).parts.2)).map (-·) = _
    rw [hread, Option.map_some, hwhole]
  · rename_i hneg
    rw [if_neg hneg, List.nil_append]
    obtain ⟨c, rest, hcons⟩ := List.exists_cons_of_ne_nil (shortest x).parts_ne_nil
    have hc : c.isDigit = true := (shortest x).isDigit_parts.1 c (hcons ▸ List.mem_cons_self)
    rw [hcons] at hread ⊢
    rw [List.cons_append, read?, ← List.cons_append, hread, hwhole]
    · intro r hr
      cases hr
      cases hc
    · intro r hr
      cases hr
      cases hc

end PageServer.Decimal
