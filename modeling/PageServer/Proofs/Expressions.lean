/-
  PageServer.Proofs.Expressions — helper expressions are read again from their text.

  An expression is read, written and read again (`ofExpression_spelled`). Words come back as the same
  number, truth value or key path, literals with their escapes, and calls with their arguments to any
  depth; the `~` before the text of a call is not part of the expression.

  The one thing that has no text of its own is a number beyond all bounds. It is written as the
  literal `"inf"` and comes back as that text. No other number is lost, since no literal is read as a
  number that is not one (`not_isNaN_of_ofExpression`).
-/

import PageServer.Proofs.Rereading

namespace PageServer

/-! ## Numbers of literals -/

namespace Decimal

theorem infinity_eq : (1.0 / 0.0 : Float) = Float.ofBits (UInt64.ofNat infinityBits) :=
  eq_of_toBits (by decide +kernel)

/-- The bits of a decimal lie below those of infinity, or are those. -/
theorem bits_of_ofScientific (digits : Nat) (exponent : Int) :
    ∃ n ≤ infinityBits, ofScientific digits exponent = Float.ofBits (UInt64.ofNat n) := by
  unfold ofScientific
  dsimp only
  split
  · exact ⟨0, Nat.zero_le _, zero_eq⟩
  · split
    · exact ⟨infinityBits, le_rfl, infinity_eq⟩
    · refine ⟨_, ?_, rfl⟩
      unfold nearestBits
      dsimp only
      split
      · exact Nat.zero_le _
      · exact Nat.min_le_right _ _

theorem not_isNaN_of_bits {n : Nat} (h : n ≤ infinityBits) :
    (Float.ofBits (UInt64.ofNat n)).isNaN = false ∧ (-Float.ofBits (UInt64.ofNat n)).isNaN = false := by
  by_cases heq : n = infinityBits
  · subst heq
    decide +kernel
  · have hlt : n < 2047 * 2 ^ 52 := lt_of_le_of_ne h heq
    have hbits := toBits_ofBits (n := n) (by omega) (by omega)
    have hfinite : (Float.ofBits (UInt64.ofNat n)).isFinite = true := isFinite_iff.mpr (by omega)
    have hlow : (Float.ofBits (UInt64.ofNat n)).toBits.toNat < 2 ^ 63 := by omega
    have hneg := toBits_neg hfinite (decide_eq_false (not_le.mpr hlow))
    exact ⟨isNaN_of_isFinite hfinite, isNaN_of_isFinite (isFinite_iff.mpr (by omega))⟩

/-- What is written with digits and points alone is a number, however large. -/
theorem bits_of_readUnsigned? {s : List Char} {x : Float} (hs : ∀ c ∈ s, c.isDigit = true ∨ c = '.')
    (h : readUnsigned? s = some x) : ∃ n ≤ infinityBits, x = Float.ofBits (UInt64.ofNat n) := by
  have hlower : s.map Char.toLower = s := by
    refine (List.map_congr_left fun c hc => ?_).trans (List.map_id s)
    rcases hs c hc with hc | rfl
    · exact toLower_of_isDigit hc
    · rfl
  have hname : String.ofList (s.map Char.toLower) ≠ "nan" := by
    intro heq
    rw [hlower] at heq
    have hn : 'n' ∈ s := by
      rw [← String.toList_ofList (l := s), heq]
      decide
    rcases hs 'n' hn with hc | hc
    · cases hc
    · cases hc
  unfold readUnsigned? at h
  dsimp only at h
  split at h
  · cases h
    exact ⟨infinityBits, le_rfl, infinity_eq⟩
  · rw [Option.ite_none_left_eq_some, Option.map_eq_some_iff] at h
    obtain ⟨-, e, -, rfl⟩ := h
    exact bits_of_ofScientific _ _

theorem read?_of_unsigned {s : List Char} (hminus : ∀ r, s = '-' :: r → False) (hplus : ∀ r, s = '+' :: r → False) :
    read? s = readUnsigned? s := by
  unfold read?
  split
  · exact absurd rfl (hminus _)
  · exact absurd rfl (hplus _)
  · rfl

end Decimal

namespace Binding

theorem digits_of_isNumeric {s : List Char} (h : isNumeric s = true) :
    ∃ ds, (∀ c ∈ ds, c.isDigit = true ∨ c = '.') ∧
      (Decimal.read? s = Decimal.readUnsigned? ds ∨ Decimal.read? s = (Decimal.readUnsigned? ds).map (-·)) := by
  have hdigits : ∀ ds : List Char, (ds.any Char.isDigit && ds.all (fun c => c.isDigit || c == '.') &&
      decide (ds.count '.' ≤ 1)) = true → ∀ c ∈ ds, c.isDigit = true ∨ c = '.' := by
    intro ds hds c hc
    simp only [Bool.and_eq_true, List.all_eq_true, Bool.or_eq_true, beq_iff_eq] at hds
    exact hds.1.2 c hc
  unfold isNumeric at h
  split at h
  · exact ⟨_, hdigits _ h, .inr rfl⟩
  · exact ⟨_, hdigits _ h, .inl rfl⟩
  · rename_i hminus hplus
    exact ⟨s, hdigits _ h, .inl (Decimal.read?_of_unsigned hminus hplus)⟩

/-- A literal is a number. -/
theorem not_isNaN_of_read? {s : List Char} {x : Float} (hs : isNumeric s = true) (h : Decimal.read? s = some x) :
    x.isNaN = false := by
  obtain ⟨ds, hds, hread | hread⟩ := digits_of_isNumeric hs <;> rw [hread] at h
  · obtain ⟨n, hn, rfl⟩ := Decimal.bits_of_readUnsigned? hds h
    exact (Decimal.not_isNaN_of_bits hn).1
  · obtain ⟨y, hy, rfl⟩ := Option.map_eq_some_iff.mp h
    obtain ⟨n, hn, rfl⟩ := Decimal.bits_of_readUnsigned? hds hy
    exact (Decimal.not_isNaN_of_bits hn).2

mutual

/-- The floating point numbers in a binding, as deep as calls are nested. -/
def floats : Binding → List Float
  | constant (.float x) => [x]
  | call _ arguments => argumentFloats arguments
  | _ => []

def argumentFloats : List Binding → List Float
  | [] => []
  | b :: rest => floats b ++ argumentFloats rest

end

theorem mem_argumentFloats {x : Float} {bs : List Binding} : x ∈ argumentFloats bs ↔ ∃ b ∈ bs, x ∈ b.floats := by
  induction bs with
  | nil => simp [argumentFloats]
  | cons b bs ih => simp [argumentFloats, ih]

theorem areFinite_iff {bs : List Binding} : areFinite bs = true ↔ ∀ b ∈ bs, b.isFinite = true := by
  induction bs with
  | nil => simp [areFinite]
  | cons b bs ih => simp [areFinite, ih]

theorem isFinite_of_not_isNaN {x : Float} (h : x.isNaN = false) : x.isFinite = true ↔ x.isInf = false := by
  change (x.toModel.unpack).isNaN = false at h
  change (x.toModel.unpack).isFinite = true ↔ (x.toModel.unpack).isInf = false
  cases hx : x.toModel.unpack <;> rw [hx] at h
  · exact iff_of_false Bool.false_ne_true nofun
  · cases h
  · exact iff_of_true rfl rfl
  · exact iff_of_true rfl rfl

/-- All that is in an expression is a number. -/
theorem not_isNaN_of_ofExpression {s : List Char} {b : Binding} (h : ofExpression s = .ok b) :
    ∀ x ∈ b.floats, x.isNaN = false := by
  refine HoldsOfRead.of_ofExpression (P := fun b => ∀ x ∈ b.floats, x.isNaN = false) ⟨?_, ?_, ?_⟩ h
  · intro s x hx
    cases hx
  · intro w b hw x hx
    unfold ofWord at hw
    split at hw
    · rename_i v hv
      cases hw
      split at hv
      · rename_i hnumeric
        have hfloat : ∀ {y}, Decimal.read? w = some y → v = .float y → x.isNaN = false := by
          rintro y hy rfl
          rw [List.mem_singleton.mp hx]
          exact not_isNaN_of_read? hnumeric hy
        unfold number? at hv
        split at hv
        · obtain ⟨y, hy, rfl⟩ := Option.map_eq_some_iff.mp hv
          exact hfloat hy rfl
        · split at hv
          · cases hv
            cases hx
          · obtain ⟨y, hy, rfl⟩ := Option.map_eq_some_iff.mp hv
            exact hfloat hy rfl
      · cases hv
    · split at hw
      · cases hw
        cases hx
      · rw [keyPathOf] at hw
        split at hw <;> cases hw
        cases hx
  · intro c w arguments _ _ harguments x hx
    obtain ⟨a, ha, hx⟩ := mem_argumentFloats.mp hx
    exact harguments a ha x hx

theorem isFinite_iff_floats {b : Binding} (h : Read b) : b.isFinite = true ↔ ∀ x ∈ b.floats, x.isFinite = true := by
  induction h with
  | float x => simp [isFinite, floats]
  | call _ _ _ ih =>
    rw [isFinite, floats, areFinite_iff]
    constructor
    · intro hall x hx
      obtain ⟨a, ha, hx⟩ := mem_argumentFloats.mp hx
      exact (ih a ha).mp (hall a ha) x hx
    · intro hall a ha
      exact (ih a ha).mpr fun x hx => hall x (mem_argumentFloats.mpr ⟨a, ha, hx⟩)
  | _ => simp [isFinite, floats]

/-! ## Written and read again -/

/-- The text of a binding as an expression: without the `~` that a call has in a declaration. -/
def spelled (b : Binding) : List Char :=
  match b with
  | call .. => b.text.toList.tail
  | _ => b.text.toList

theorem spelled_eq (b : Binding) : b.spelled = b.term.toList := by
  cases b with
  | call helper arguments => simp [spelled, text]
  | _ => rfl

/-- An expression is read again from its text: as itself, unless a number in it is infinite, and then with
    such numbers as their texts. -/
theorem ofExpression_spelled {s : List Char} {b : Binding} (h : ofExpression s = .ok b) :
    ofExpression b.spelled = .ok b.settled ∧
      (ofExpression b.spelled = .ok b ↔ ∀ x ∈ b.floats, x.isInf = false) := by
  have hread := read_of_ofExpression h
  have hnumbers := not_isNaN_of_ofExpression h
  have hagain : ofExpression b.spelled = .ok b.settled := by
    rw [spelled_eq]
    exact ofExpression_term hread
  refine ⟨hagain, ?_⟩
  calc ofExpression b.spelled = .ok b
      ↔ b.settled = b := by rw [hagain, Except.ok.injEq]
    _ ↔ ∀ x ∈ b.floats, x.isFinite = true := by rw [settled_eq_self_iff, isFinite_iff_floats hread]
    _ ↔ ∀ x ∈ b.floats, x.isInf = false :=
      forall₂_congr fun x hx => isFinite_of_not_isNaN (hnumbers x hx)

def nestedCalls : String :=
  "~f\"(x.y, concat( \"a\\\"b\\n\" ,-2.50,NO,7), 99999999999999999999)"

/-- A call in a call, with a quote and a `~` in the name of the outer one. -/
theorem nested_calls_are_read_again :
    ∃ b, ofExpression nestedCalls.toList = .ok b ∧
      b.text = "~~f\"(x.y, concat(\"a\\\"b\\n\", -2.5, false, 7), 100000000000000000000.0)" ∧
      (∀ x ∈ b.floats, x.isInf = false) ∧ ofExpression b.spelled = .ok b := by
  have hread : (ofExpression nestedCalls.toList).toOption.map (fun b => (b.text, b.floats.all (!·.isInf))) =
      some ("~~f\"(x.y, concat(\"a\\\"b\\n\", -2.5, false, 7), 100000000000000000000.0)", true) := by
    decide +kernel
  rcases h : ofExpression nestedCalls.toList with e | b <;> rw [h] at hread
  · cases hread
  simp only [Except.toOption, Option.map_some, Option.some.injEq, Prod.mk.injEq, List.all_eq_true,
    Bool.not_eq_true'] at hread
  exact ⟨b, rfl, hread.1, hread.2, (ofExpression_spelled h).2.mpr hread.2⟩

end Binding

end PageServer
