import Tabulate.Number.Shortest

/-! Rounding keeps what needs none, so a number that is written as an integer is that integer. -/
namespace Tabulate

/-- A count that a number can hold is not rounded. -/
theorem roundUnits_of_representable {units : Nat} (h : Representable units) :
    roundUnits units 1 = units := by
  have hdvd : twoTo (units.log2 - 52) ∣ units := h.2
  have hrest : units % twoTo (units.log2 - 52) = 0 := Nat.mod_eq_zero_of_dvd hdvd
  simp only [roundUnits, nearestEven, Nat.div_one, Nat.one_mul, hrest, Nat.mul_zero, twoTo_pos,
    if_true]
  exact Nat.div_mul_cancel hdvd

namespace Number

theorem one_pos : 0 < one := twoTo_pos 1074

@[simp] theorem natAbs_signed (negative : Bool) (units : Nat) : (signed negative units).natAbs = units := by
  cases negative
  · exact Int.natAbs_natCast units
  · exact (Int.natAbs_neg _).trans (Int.natAbs_natCast units)

private theorem signed_lt_zero {negative : Bool} {units : Nat} (h : units ≠ 0) :
    decide (signed negative units < 0) = negative := by
  cases negative
  · simp [signed]
  · simpa [signed] using Nat.pos_of_ne_zero h

theorem ofRatio_units (negative : Bool) (m : Magnitude) :
    ofRatio negative m.units 1 = finite negative m := by
  simp only [ofRatio, roundUnits_of_representable m.representable, m.representable.1, dite_true]

/-- A finite number without a fraction is made from its whole part, which has no sign if it is zero. -/
theorem ofInt_signed {negative : Bool} {m : Magnitude} (whole : m.units % one = 0)
    (sign : finite negative m ≠ zero true) :
    ofInt (signed negative (m.units / one)) = finite negative m := by
  have hunits : m.units / one * one = m.units := Nat.div_mul_cancel (Nat.dvd_of_mod_eq_zero whole)
  have hsign : decide (signed negative (m.units / one) < 0) = negative := by
    by_cases h : m.units / one = 0
    · rw [h, Nat.zero_mul] at hunits
      rw [h]
      cases negative with
      | false => rfl
      | true =>
        obtain ⟨units, representable⟩ := m
        cases hunits
        exact absurd rfl sign
    · exact signed_lt_zero h
  rw [ofInt, natAbs_signed, hunits, hsign, ofRatio_units]

theorem toInt64_finite {negative : Bool} {m : Magnitude} (small : m.units / one < 9000000000000000) :
    toInt64 (finite negative m) = signed negative (m.units / one) := by
  have hpower : (twoTo 63 : Int) = 9223372036854775808 := rfl
  simp only [toInt64, toIntWithin, Word.least, Word.greatest, hpower]
  generalize m.units / one = whole at small
  cases negative <;> simp only [signed, Bool.false_eq_true, if_false, if_true] <;> omega

/-- The whole part of a number that is written as an integer. -/
theorem isIntegral_cases {n : Number} (integral : n.isIntegral = true) :
    ∃ negative m, n = finite negative m ∧ m.units % one = 0 ∧ m.units / one < 9000000000000000 := by
  cases n with
  | nan | infinite => contradiction
  | finite negative m =>
    simp only [isIntegral, isWhole, Bool.and_eq_true, beq_iff_eq, decide_eq_true_eq] at integral
    exact ⟨negative, m, rfl, integral.1, (Nat.div_lt_iff_lt_mul one_pos).mpr integral.2⟩

/-- A number that is written as an integer, other than zero with a sign, is that integer. -/
theorem ofInt_toInt64 {n : Number} (integral : n.isIntegral = true) (sign : n ≠ zero true) :
    ofInt n.toInt64 = n := by
  obtain ⟨negative, m, rfl, whole, small⟩ := isIntegral_cases integral
  rw [toInt64_finite small, ofInt_signed whole sign]

theorem natAbs_toInt64_lt {n : Number} (integral : n.isIntegral = true) :
    n.toInt64.natAbs < 9000000000000000 := by
  obtain ⟨negative, m, rfl, -, small⟩ := isIntegral_cases integral
  rwa [toInt64_finite small, natAbs_signed]

end Number
end Tabulate
