import Mathlib.Tactic.Ring
import Tabulate.Proofs.Number.Digits

/-! The fewest digits of a number read back as that number. -/
namespace Tabulate

section Rounding

private theorem nearestEven_mul (num den : Nat) {c : Nat} (hc : 0 < c) :
    nearestEven (num * c) (den * c) = nearestEven num den := by
  have hscale : ∀ a b : Nat, a * c < b * c ↔ a < b := fun a b => Nat.mul_lt_mul_right hc
  simp only [nearestEven, Nat.mul_div_mul_right _ _ hc, Nat.mul_mod_mul_right, ← Nat.mul_assoc, hscale]

/-- Rounding a ratio does not depend on how it is written. -/
theorem roundUnits_mul (num den : Nat) {c : Nat} (hc : 0 < c) :
    roundUnits (num * c) (den * c) = roundUnits num den := by
  simp only [roundUnits, Nat.mul_div_mul_right _ _ hc, Nat.mul_right_comm den c, nearestEven_mul _ _ hc]

private theorem div_le_nearestEven (num den : Nat) : num / den ≤ nearestEven num den := by
  simp only [nearestEven]
  split
  · exact Nat.le_refl _
  · split <;> omega

/-- A half is five tenths, so a count over a power of two is one over a power of ten. -/
theorem roundUnits_mul_tens (count n : Nat) :
    roundUnits (count * Nat.pow 5 n * twoTo n) (tenTo n) = roundUnits count 1 := by
  have hpos : 0 < Nat.pow 5 n * twoTo n := tenTo_eq_mul n ▸ tenTo_pos n
  rw [tenTo_eq_mul, Nat.mul_assoc, ← roundUnits_mul count 1 hpos, Nat.one_mul]

/-- No count falls below a power of two by rounding. -/
theorem twoTo_le_roundUnits {bits units : Nat} (large : 52 ≤ bits) (h : twoTo bits ≤ units) :
    twoTo bits ≤ roundUnits units 1 := by
  have hpos : units ≠ 0 := Nat.ne_of_gt (Nat.lt_of_lt_of_le (twoTo_pos bits) h)
  have hlog : bits ≤ units.log2 := le_log2_of_twoTo_le hpos h
  have hstep : twoTo units.log2 = twoTo 52 * twoTo (units.log2 - 52) := by
    rw [← twoTo_add]
    congr 1
    omega
  have hhead : twoTo 52 ≤ units / twoTo (units.log2 - 52) := by
    rw [Nat.le_div_iff_mul_le (twoTo_pos _), ← hstep]
    exact twoTo_log2_le hpos
  calc twoTo bits ≤ twoTo units.log2 := twoTo_le_twoTo hlog
    _ = twoTo 52 * twoTo (units.log2 - 52) := hstep
    _ ≤ units / twoTo (units.log2 - 52) * twoTo (units.log2 - 52) := Nat.mul_le_mul_right _ hhead
    _ ≤ roundUnits units 1 := by
      simp only [roundUnits, Nat.div_one, Nat.one_mul]
      exact Nat.mul_le_mul_right _ (div_le_nearestEven _ _)

/-- What is too large stays so. -/
theorem overflow_le_roundUnits {units : Nat} (h : overflow ≤ units) : overflow ≤ roundUnits units 1 :=
  twoTo_le_roundUnits (by decide) h

/-- Rounding does not double a count. -/
theorem roundUnits_le_double {units : Nat} (pos : units ≠ 0) : roundUnits units 1 ≤ units * 2 := by
  have hstep : twoTo (units.log2 - 52) ≤ units :=
    Nat.le_trans (twoTo_le_twoTo (Nat.sub_le _ _)) (twoTo_log2_le pos)
  calc roundUnits units 1
    _ ≤ (units / twoTo (units.log2 - 52) + 1) * twoTo (units.log2 - 52) := by
      simp only [roundUnits, Nat.div_one, Nat.one_mul]
      exact Nat.mul_le_mul_right _ (nearestEven_le _ _)
    _ = units / twoTo (units.log2 - 52) * twoTo (units.log2 - 52) + twoTo (units.log2 - 52) := Nat.succ_mul _ _
    _ ≤ units + units := Nat.add_le_add (Nat.div_mul_le_self _ _) hstep
    _ = units * 2 := (Nat.mul_two units).symm

/-- What is below half a unit is nothing. -/
theorem roundUnits_of_lt {num den : Nat} (h : 2 * num < den) : roundUnits num den = 0 := by
  have hlow : num / den = 0 := Nat.div_eq_of_lt (by omega)
  have hrest : num % den = num := Nat.mod_eq_of_lt (by omega)
  have hstep : twoTo (Nat.log2 0 - 52) = 1 := by decide
  simp only [roundUnits, nearestEven, hlow, hstep, Nat.mul_one, hrest, if_pos h]

end Rounding

namespace Decimal

private theorem units_of_zero (exponent : Int) : (⟨0, exponent⟩ : Decimal).units = 0 := by
  have hzero : ∀ den, 0 < den → roundUnits 0 den = 0 := fun den h => roundUnits_of_lt (by omega)
  rw [units]
  split
  · rw [Nat.zero_mul, Nat.zero_mul, hzero 1 Nat.one_pos]
  · rw [Nat.zero_mul, hzero _ (tenTo_pos _)]

/-- A decimal with a large power of ten is too large. -/
theorem overflow_le_units {d : Decimal} (hd : d.digits ≠ 0) (h : 400 < d.exponent) :
    overflow ≤ d.units := by
  have hpower : tenTo 401 ≤ tenTo d.exponent.toNat := tenTo_le_tenTo (by omega)
  have hbound : overflow ≤ tenTo 401 * Number.one := by decide +kernel
  rw [units, if_pos (by omega)]
  apply overflow_le_roundUnits
  calc overflow ≤ tenTo 401 * Number.one := hbound
    _ ≤ d.digits * tenTo d.exponent.toNat * Number.one :=
      Nat.mul_le_mul_right _ (Nat.le_trans hpower (Nat.le_mul_of_pos_left _ (Nat.pos_of_ne_zero hd)))

/-- A decimal with a small power of ten is nothing. -/
theorem units_of_lt {d : Decimal} (h : d.exponent < -(d.digits.log2 : Int) - 400) : d.units = 0 := by
  have hdigits : d.digits < twoTo d.digits.log2 * 2 := by
    have := lt_twoTo_log2 d.digits
    rwa [twoTo_add] at this
  have hbound : 4 * Number.one ≤ tenTo 401 := by decide +kernel
  have hpower : tenTo d.digits.log2 * tenTo 401 ≤ tenTo (-d.exponent).toNat := by
    rw [← tenTo_add]
    exact tenTo_le_tenTo (by omega)
  rw [units, if_neg (by omega)]
  apply roundUnits_of_lt
  calc 2 * (d.digits * Number.one) < 2 * (twoTo d.digits.log2 * 2 * Number.one) :=
        Nat.mul_lt_mul_of_pos_left (Nat.mul_lt_mul_of_pos_right hdigits Number.one_pos) (by decide)
    _ = twoTo d.digits.log2 * (4 * Number.one) := by ring
    _ ≤ tenTo d.digits.log2 * tenTo 401 := Nat.mul_le_mul (twoTo_le_tenTo _) hbound
    _ ≤ tenTo (-d.exponent).toNat := hpower

section Shortest
variable {count : Nat} (representable : Representable count)
include representable

private theorem units_exact : (exact count).units = count := by
  have hunits : ∀ n, n = 1074 → (⟨count * Nat.pow 5 n, -(n : Int)⟩ : Decimal).units = count := by
    intro n hn
    have hone : Number.one = twoTo n := by rw [hn, Number.one]
    have hneg : ¬ -(n : Int) ≥ 0 := by omega
    rw [units, if_neg hneg, Int.neg_neg, Int.toNat_natCast, hone, roundUnits_mul_tens,
      roundUnits_of_representable representable]
  exact hunits 1074 rfl

private theorem units_search (tie : Tie) (fuel : Nat) (exponent : Int) :
    (search tie count fuel exponent).units = count := by
  induction fuel generalizing exponent with
  | zero => exact units_exact representable
  | succ fuel ih =>
    rw [search]
    split
    next d hd =>
      have := List.find?_some hd
      simp only [Bool.and_eq_true, beq_iff_eq] at this
      exact this.2
    next => exact ih (exponent - 1)

/-- The shortest decimal of a count reads back as the count. -/
theorem units_shortest (tie : Tie) : (shortest tie count).units = count :=
  units_search representable tie _ _

end Shortest

end Decimal

namespace Number

/-- A decimal that rounds to a number other than zero stands for the number. -/
theorem ofDecimal_of_units {d : Decimal} {m : Magnitude} (hd : d.units = m.units) (hm : m.units ≠ 0)
    (negative : Bool) : ofDecimal negative d.digits d.exponent = finite negative m := by
  have hdigits : d.digits ≠ 0 := by
    intro h
    obtain ⟨digits, exponent⟩ := d
    subst h
    exact hm (hd ▸ Decimal.units_of_zero exponent)
  have hlarge : ¬ d.exponent > 400 := fun h =>
    absurd m.representable.1 (Nat.not_lt.mpr (hd ▸ Decimal.overflow_le_units hdigits h))
  have hsmall : ¬ d.exponent < -(d.digits.log2 : Int) - 400 := fun h =>
    hm (hd ▸ Decimal.units_of_lt h)
  have hround : ∀ num den, roundUnits num den = m.units → ofRatio negative num den = finite negative m := by
    intro num den h
    simp only [ofRatio, h, m.representable.1, dif_pos]
  rw [Decimal.units] at hd
  rw [ofDecimal, if_neg hdigits, if_neg hlarge, if_neg hsmall]
  split at hd
  next h => rw [if_pos h, hround _ _ hd]
  next h => rw [if_neg h, hround _ _ hd]

end Number
end Tabulate
