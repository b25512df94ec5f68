import Tabulate.Proofs.Number.Shortest

/-! A natural number from `2 ^ 53` on is rounded: it stays whole, and does not fall below `2 ^ 53`. -/
namespace Tabulate.Number
variable {n : Nat}

private theorem twoTo_mul_one (bits : Nat) : twoTo bits * one = twoTo (bits + 1074) := (twoTo_add bits 1074).symm

private theorem exists_ofNat_eq_finite (low : twoTo 53 ≤ n) (high : n < twoTo 64) :
    ∃ m : Magnitude, ofNat n = finite false m ∧ one ∣ m.units ∧ twoTo 53 * one ≤ m.units := by
  have hlow : twoTo 1127 ≤ n * one := by
    rw [← twoTo_mul_one 53]
    exact Nat.mul_le_mul_right one low
  have hpos : n * one ≠ 0 := Nat.ne_of_gt (Nat.lt_of_lt_of_le (twoTo_pos _) hlow)
  have hlog : 1127 ≤ (n * one).log2 := le_log2_of_twoTo_le hpos hlow
  have hwhole : one ∣ roundUnits (n * one) 1 := by
    have hstep : one ∣ twoTo ((n * one).log2 - 52) := twoTo_dvd_twoTo (by omega)
    simp only [roundUnits, Nat.div_one]
    exact Nat.dvd_mul_left_of_dvd hstep _
  have hfinite : roundUnits (n * one) 1 < overflow := by
    have hhigh : n * one < twoTo 1138 := by
      rw [← twoTo_mul_one 64]
      exact Nat.mul_lt_mul_of_pos_right high one_pos
    have hdouble : twoTo 1138 * twoTo 1 ≤ overflow := by
      rw [← twoTo_add]
      exact twoTo_le_twoTo (by decide)
    have htwo : twoTo 1 = 2 := rfl
    have hround := roundUnits_le_double hpos
    rw [htwo] at hdouble
    omega
  refine ⟨⟨roundUnits (n * one) 1, hfinite, dvd_roundUnits _ _⟩, ?_, hwhole, ?_⟩
  · rw [ofNat, ofRatio, dif_pos hfinite]
  · rw [twoTo_mul_one]
    exact twoTo_le_roundUnits (by decide) hlow

theorem isWhole_ofNat_of_le (low : twoTo 53 ≤ n) (high : n < twoTo 64) : (ofNat n).isWhole = true := by
  obtain ⟨m, hm, hwhole, -⟩ := exists_ofNat_eq_finite low high
  rw [hm, isWhole, Nat.mod_eq_zero_of_dvd hwhole]
  rfl

theorem le_toInt64_ofNat (low : twoTo 53 ≤ n) (high : n < twoTo 64) : (twoTo 53 : Int) ≤ (ofNat n).toInt64 := by
  obtain ⟨m, hm, -, hle⟩ := exists_ofNat_eq_finite low high
  have hunits : twoTo 53 ≤ m.units / one := (Nat.le_div_iff_mul_le one_pos).mpr hle
  have hsmall : (twoTo 53 : Int) = 9007199254740992 := rfl
  have hpower : (twoTo 63 : Int) = 9223372036854775808 := rfl
  rw [hm]
  simp only [toInt64, toIntWithin, signed, Word.least, Word.greatest, Bool.false_eq_true, if_false, hpower]
  omega

end Tabulate.Number
