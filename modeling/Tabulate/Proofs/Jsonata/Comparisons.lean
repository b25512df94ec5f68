import Tabulate.Jsonata.Eval
import Tabulate.Proofs.Value.Order

/-! Comparisons of JSONata. They cohere but for one pair: null is neither below null nor equal to it, and yet
at most and at least null. -/
namespace Tabulate.Jsonata
open Value (null)

def IsTrue (op : BinaryOp) (a b : Value) (position : Nat) : Prop := applyBinary op a b position = .ok (.bool true)

section Orders
variable {a b : Value} {position : Nat}

/-- A comparison that gives a truth value is true if that value is. -/
theorem isTrue_iff {op : BinaryOp} {test : Bool} (h : applyBinary op a b position = .ok (.bool test)) :
    IsTrue op a b position ↔ test = true := by
  rw [IsTrue, h, Except.ok.injEq, Value.bool.injEq]

private theorem isTrue_lt_iff : IsTrue .lt a b position ↔ a.compare? b = some .lt := by
  rw [isTrue_iff rfl, beq_iff_eq]

private theorem isTrue_gt_iff : IsTrue .gt a b position ↔ a.compare? b = some .gt := by
  rw [isTrue_iff rfl, beq_iff_eq]

private theorem isTrue_le_iff : IsTrue .le a b position ↔ a.compare? b = some .lt ∨ a.compare? b = some .eq := by
  rw [isTrue_iff rfl, Bool.or_eq_true, beq_iff_eq, beq_iff_eq]

private theorem isTrue_ge_iff : IsTrue .ge a b position ↔ a.compare? b = some .gt ∨ a.compare? b = some .eq := by
  rw [isTrue_iff rfl, Bool.or_eq_true, beq_iff_eq, beq_iff_eq]

private theorem isTrue_eq_iff : IsTrue .eq a b position ↔ a.isNull = false ∧ a.equals b = true := by
  rw [isTrue_iff rfl, Bool.and_eq_true, Bool.not_eq_true']

/-- Values that have an order are equal only if that order says so. -/
theorem equals_of_compare? {order : Ordering} (h : a.compare? b = some order) :
    a.equals b = (order == .eq) := by
  rw [Value.equals, h]

/-- Values of which one is below the other are not equal. -/
theorem not_isTrue_eq {order : Ordering} (h : a.compare? b = some order) (strict : order ≠ .eq) :
    ¬ IsTrue .eq a b position := by
  intro heq
  have hequals := (isTrue_eq_iff.mp heq).2
  rw [equals_of_compare? h, beq_iff_eq] at hequals
  exact strict hequals

/-- A value is below another one if the other one is above it. -/
theorem isTrue_lt_iff_gt : IsTrue .lt a b position ↔ IsTrue .gt b a position := by
  rw [isTrue_lt_iff, isTrue_gt_iff, Value.compare?_swap a b]
  cases a.compare? b with
  | none => exact ⟨nofun, nofun⟩
  | some order => cases order <;> simp

/-- What is level is equal, but for null. -/
theorem isTrue_eq_of_compare? (h : a.compare? b = some .eq) : IsTrue .eq a b position ∨ a = null ∧ b = null := by
  by_cases hnull : a.isNull = true ∧ b.isNull = true
  · exact .inr ⟨Value.eq_null_of_isNull hnull.1, Value.eq_null_of_isNull hnull.2⟩
  · left
    cases ha : a.isNull with
    | false => exact isTrue_eq_iff.mpr ⟨ha, equals_of_compare? h⟩
    | true =>
      have hb : b.isNull = false := by simpa [ha] using hnull
      rw [Value.compare?_of_isNull (.inl ha) (.inr hb)] at h
      contradiction

end Orders

/-- The comparisons of two values agree with each other, but for null with itself. -/
theorem isTrue_coherent (a b : Value) (position : Nat) :
    (IsTrue .le a b position → IsTrue .lt a b position ∨ IsTrue .eq a b position ∨ a = null ∧ b = null) ∧
    (IsTrue .ge a b position → IsTrue .gt a b position ∨ IsTrue .eq a b position ∨ a = null ∧ b = null) ∧
    (IsTrue .lt a b position ↔ IsTrue .gt b a position) ∧
    ¬ (IsTrue .lt a b position ∧ IsTrue .eq a b position) ∧
    ¬ (IsTrue .eq a b position ∧ IsTrue .gt a b position) ∧
    ¬ (IsTrue .lt a b position ∧ IsTrue .gt a b position) := by
  refine ⟨fun h => ?_, fun h => ?_, isTrue_lt_iff_gt, ?_, ?_, ?_⟩
  · exact (isTrue_le_iff.mp h).imp isTrue_lt_iff.mpr isTrue_eq_of_compare?
  · exact (isTrue_ge_iff.mp h).imp isTrue_gt_iff.mpr isTrue_eq_of_compare?
  · exact fun ⟨hlt, heq⟩ => not_isTrue_eq (isTrue_lt_iff.mp hlt) (by decide) heq
  · exact fun ⟨heq, hgt⟩ => not_isTrue_eq (isTrue_gt_iff.mp hgt) (by decide) heq
  · rintro ⟨hlt, hgt⟩
    have hboth := (isTrue_lt_iff.mp hlt).symm.trans (isTrue_gt_iff.mp hgt)
    contradiction

/-- A number and a text that stands for it are equal, and so neither is below the other. -/
theorem isTrue_coherent_price :
    let a := Value.number 1000
    let b := Value.string "1,000"
    IsTrue .le a b 0 ∧ (IsTrue .lt a b 0 ∨ IsTrue .eq a b 0 ∨ a = null ∧ b = null) ∧
      IsTrue .ge a b 0 ∧ (IsTrue .gt a b 0 ∨ IsTrue .eq a b 0 ∨ a = null ∧ b = null) ∧
      IsTrue .eq a b 0 ∧ ¬ IsTrue .lt a b 0 ∧ ¬ IsTrue .gt a b 0 := by
  intro a b
  have level : a.compare? b = some .eq := by decide +kernel
  have hle : IsTrue .le a b 0 := isTrue_le_iff.mpr (.inr level)
  have hge : IsTrue .ge a b 0 := isTrue_ge_iff.mpr (.inr level)
  have heq : IsTrue .eq a b 0 := (isTrue_eq_of_compare? level).resolve_right nofun
  obtain ⟨least, most, -, notBelow, notAbove, -⟩ := isTrue_coherent a b 0
  exact ⟨hle, least hle, hge, most hge, heq, fun hlt => notBelow ⟨hlt, heq⟩, fun hgt => notAbove ⟨heq, hgt⟩⟩

/-- Null is at most and at least null, but neither below, nor equal to, nor above it. -/
theorem isTrue_nulls :
    IsTrue .le null null 0 ∧ IsTrue .ge null null 0 ∧
      ¬ IsTrue .lt null null 0 ∧ ¬ IsTrue .eq null null 0 ∧ ¬ IsTrue .gt null null 0 := by
  simp [isTrue_le_iff, isTrue_ge_iff, isTrue_lt_iff, isTrue_eq_iff, isTrue_gt_iff, Value.compare?, Value.isNull]

end Tabulate.Jsonata
