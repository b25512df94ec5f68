import Mathlib.Data.List.TakeDrop
import Tabulate.Number.Read
import Tabulate.Proofs.Number.Whole

/-! The decimal digits of a natural number stand for that number, and a number that takes its place
below `2 ^ 53` is kept whole. -/
namespace Tabulate

private theorem digitsValue_eq_ofDigitChars (digits : List Char) :
    digitsValue digits = Nat.ofDigitChars 10 digits 0 := by
  rw [digitsValue, Nat.ofDigitChars_eq_foldl]
  simp only [Nat.mul_comm]

theorem digitsValue_toDigits (n : Nat) : digitsValue (Nat.toDigits 10 n) = n := by
  rw [digitsValue_eq_ofDigitChars, Nat.ofDigitChars_ten_toDigits]

theorem toDigits_injective {m n : Nat} (h : Nat.toDigits 10 m = Nat.toDigits 10 n) : m = n := by
  rw [← digitsValue_toDigits m, h, digitsValue_toDigits]

theorem digitsValue_zeros_append (count : Nat) (digits : List Char) :
    digitsValue (List.replicate count '0' ++ digits) = digitsValue digits := by
  rw [digitsValue_eq_ofDigitChars, Nat.ofDigitChars_append, Nat.ofDigitChars_replicate_zero,
    Nat.mul_zero, digitsValue_eq_ofDigitChars]

theorem digitsValue_append_zeros (digits : List Char) (count : Nat) :
    digitsValue (digits ++ List.replicate count '0') = digitsValue digits * tenTo count := by
  rw [digitsValue_eq_ofDigitChars, Nat.ofDigitChars_append, Nat.ofDigitChars_replicate_zero,
    digitsValue_eq_ofDigitChars, Nat.mul_comm, tenTo]
  rfl

theorem isDigit_toDigits {n : Nat} : ∀ d ∈ Nat.toDigits 10 n, d.isDigit = true :=
  fun _ h => Nat.isDigit_of_mem_toDigits (by decide) (by decide) h

/-- Digits are taken up to the first character that is none. -/
theorem takeDigits_append {digits rest : List Char} (h : ∀ d ∈ digits, d.isDigit = true)
    (ends : ∀ c ∈ rest.head?, c.isDigit = false) : takeDigits (digits ++ rest) = (digits, rest) := by
  rw [takeDigits, List.span_eq_takeWhile_dropWhile, List.takeWhile_append_of_pos h,
    List.dropWhile_append_of_pos h]
  cases rest with
  | nil => simp
  | cons c rest =>
    have hc : ¬ c.isDigit = true := by simp [ends c rfl]
    rw [List.takeWhile_cons_of_neg hc, List.dropWhile_cons_of_neg hc, List.append_nil]

theorem takeDigits_toDigits (n : Nat) : takeDigits (Nat.toDigits 10 n) = (Nat.toDigits 10 n, []) := by
  have ends : ∀ c ∈ ([] : List Char).head?, c.isDigit = false := nofun
  have h := takeDigits_append (isDigit_toDigits (n := n)) ends
  rwa [List.append_nil] at h

namespace Number

private theorem ofNat_zero : ofNat 0 = zero false := by
  have hzero : roundUnits 0 1 = 0 := roundUnits_of_representable representable_zero
  simp only [ofNat, ofRatio, Nat.zero_mul, hzero, overflow_pos, dite_true]
  rfl

private theorem ofDecimal_zero_exponent (n : Nat) : ofDecimal false n 0 = ofNat n := by
  unfold ofDecimal
  split
  · next hn => rw [hn, ofNat_zero]
  · have hlow : ¬ (0 : Int) < -(n.log2 : Int) - 400 := by omega
    rw [if_neg (by decide), if_neg hlow, if_pos (by decide)]
    simp [ofNat, tenTo]

private theorem readDecimal_toDigits (n : Nat) : readDecimal false (Nat.toDigits 10 n) = some (ofNat n) := by
  have hsome : (Nat.toDigits 10 n).isEmpty = false := by
    rw [List.isEmpty_eq_false_iff]
    exact Nat.toDigits_ne_nil
  simp only [readDecimal, takeDigits_toDigits, hsome, Bool.false_and, List.append_nil,
    digitsValue_toDigits, List.length_nil]
  exact congrArg some (ofDecimal_zero_exponent n)

private theorem toLower_of_isDigit {c : Char} (h : c.isDigit = true) : c.toLower = c := by
  have hupper : ¬ (c.val ≥ 'A'.val ∧ c.val ≤ 'Z'.val) := by
    simp only [Char.isDigit, Bool.and_eq_true, decide_eq_true_eq] at h
    grind
  exact dif_neg hupper

private theorem map_toLower_ne {d : Char} (hd : d.isDigit = true) (digits : List Char) :
    ∀ word ∈ ["inf", "infinity", "nan"], (d :: digits).map Char.toLower ≠ word.toList := by
  intro word hword heq
  have hletter : ∀ word ∈ ["inf", "infinity", "nan"], word.toList.head?.any Char.isDigit = false := by
    decide
  have hfirst := hletter word hword
  rw [← heq, List.map_cons, toLower_of_isDigit hd, List.head?_cons, Option.any_some, hd] at hfirst
  contradiction

theorem readUnsigned_of_isDigit {d : Char} (hd : d.isDigit = true) (negative : Bool) (rest : List Char) :
    readUnsigned negative (d :: rest) = readDecimal negative (d :: rest) := by
  have hword := map_toLower_ne hd rest
  unfold readUnsigned
  dsimp only
  rw [if_neg (not_or.mpr ⟨hword _ (by simp), hword _ (by simp)⟩), if_neg (hword _ (by simp))]

/-- A text that starts with a digit has no sign. -/
theorem read?_of_isDigit {d : Char} (hd : d.isDigit = true) (rest : List Char) :
    read? (d :: rest) = readDecimal false (d :: rest) := by
  have hne : ∀ c, c.isDigit = false → d ≠ c := by
    rintro c hc rfl
    exact Bool.false_ne_true (hc.symm.trans hd)
  unfold read?
  split
  next heq => exact absurd (List.cons.inj heq).1 (hne '-' rfl)
  next heq => exact absurd (List.cons.inj heq).1 (hne '+' rfl)
  next => exact readUnsigned_of_isDigit hd false rest

/-- Digits stand for the number that they are those of. -/
theorem read?_toDigits (n : Nat) : read? (Nat.toDigits 10 n) = some (ofNat n) := by
  obtain ⟨d, digits, h⟩ := List.exists_cons_of_ne_nil (Nat.toDigits_ne_nil (n := n) (b := 10))
  have hd : d.isDigit = true := isDigit_toDigits d (h ▸ List.mem_cons_self)
  rw [h, read?_of_isDigit hd, ← h, readDecimal_toDigits]

section Whole
variable {n : Nat}

private theorem representable_mul_one (h : n < twoTo 53) : Representable (n * one) := by
  have hlt : n * one < twoTo 1127 := by
    have hone : twoTo 53 * one = twoTo 1127 := by rw [one, ← twoTo_add]
    rw [← hone]
    exact Nat.mul_lt_mul_of_pos_right h one_pos
  have hlog : (n * one).log2 - 52 ≤ 1074 := by
    by_cases hzero : n * one = 0
    · rw [hzero, Nat.log2_zero]
      exact Nat.zero_le _
    · have := log2_lt_of_lt_twoTo hzero hlt
      omega
  exact ⟨Nat.lt_of_lt_of_le hlt (twoTo_le_twoTo (by decide)),
    Nat.dvd_mul_left_of_dvd (twoTo_dvd_twoTo hlog) n⟩

private theorem ofNat_eq_finite (h : n < twoTo 53) :
    ofNat n = finite false ⟨n * one, representable_mul_one h⟩ := by
  rw [ofNat]
  exact ofRatio_units false ⟨n * one, representable_mul_one h⟩

theorem isWhole_ofNat (h : n < twoTo 53) : (ofNat n).isWhole = true := by
  rw [ofNat_eq_finite h, isWhole, Nat.mul_mod_left]
  rfl

theorem toInt64_ofNat (h : n < twoTo 53) : (ofNat n).toInt64 = n := by
  have hsmall : n * one / one = n := Nat.mul_div_cancel n one_pos
  have hbound : n < 9007199254740992 := h
  have hpower : (twoTo 63 : Int) = 9223372036854775808 := rfl
  rw [ofNat_eq_finite h]
  simp only [toInt64, toIntWithin, signed, hsmall, Word.least, Word.greatest, hpower, Bool.false_eq_true,
    if_false]
  omega

theorem toNat64_ofNat (h : n < twoTo 53) : (ofNat n).toNat64 = n := by
  have hsmall : n * one / one = n := Nat.mul_div_cancel n one_pos
  have hbound : n < 9007199254740992 := h
  have hpower : (twoTo 64 : Int) = 18446744073709551616 := rfl
  rw [ofNat_eq_finite h]
  simp only [toNat64, toIntWithin, signed, hsmall, hpower, Bool.false_eq_true, if_false]
  omega

theorem toNat64_lt (n : Number) : n.toNat64 < twoTo 64 := by
  have hpower : (twoTo 64 : Int) = 18446744073709551616 := rfl
  have hbound : twoTo 64 = 18446744073709551616 := rfl
  unfold toNat64 toIntWithin
  split
  · decide
  · split <;> decide
  · omega

private theorem floor_finite (negative : Bool) (h : Representable (n * one)) :
    (finite negative ⟨n * one, h⟩).floor = finite negative ⟨n * one, h⟩ := by
  have hdown : n * one / one = n := Nat.mul_div_cancel n one_pos
  have hup : (n * one + (one - 1)) / one = n := by
    rw [Nat.add_comm, Nat.add_mul_div_right _ _ one_pos, Nat.div_eq_of_lt (Nat.sub_lt one_pos Nat.one_pos),
      Nat.zero_add]
  have hwhole : (if negative then (n * one + (one - 1)) / one else n * one / one) = n := by
    rw [hdown, hup, ite_self]
  calc (finite negative ⟨n * one, h⟩).floor
    _ = ofRatio negative ((if negative then (n * one + (one - 1)) / one else n * one / one) * one) 1 := rfl
    _ = ofRatio negative (n * one) 1 := by rw [hwhole]
    _ = finite negative ⟨n * one, h⟩ := ofRatio_units negative ⟨n * one, h⟩

end Whole

/-- The number below zero that has the digits of a natural number. -/
theorem neg_ofNat {n : Nat} (h : 0 < n) : (ofNat n).neg = ofInt (-n) := by
  have hneg : decide (-(n : Int) < 0) = true := by simpa using h
  rw [ofInt, Int.natAbs_neg, Int.natAbs_natCast, hneg, ofNat, ofRatio, ofRatio]
  split <;> rfl

theorem ofNat_eq_ofInt (n : Nat) : ofNat n = ofInt n := by
  have hneg : decide ((n : Int) < 0) = false := by simp
  rw [ofInt, Int.natAbs_natCast, hneg, ofNat]

section Integers
variable {i : Int} (exact : i.natAbs < twoTo 53)
include exact

theorem ofInt_eq_finite : ofInt i = finite (decide (i < 0)) ⟨i.natAbs * one, representable_mul_one exact⟩ :=
  ofRatio_units _ ⟨i.natAbs * one, representable_mul_one exact⟩

/-- An integer that keeps each of its digits is its own whole part. -/
theorem toInt64_floor_ofInt : (ofInt i).floor.toInt64 = i := by
  have hpower : (twoTo 63 : Int) = 9223372036854775808 := rfl
  have hbound : i.natAbs < 9007199254740992 := exact
  have hsmall : i.natAbs * one / one = i.natAbs := Nat.mul_div_cancel _ one_pos
  rw [ofInt_eq_finite exact, floor_finite]
  simp only [toInt64, toIntWithin, signed, hsmall, Word.least, Word.greatest, hpower]
  by_cases negative : i < 0
  · simp only [negative, decide_true, if_true]
    omega
  · simp only [negative, decide_false, Bool.false_eq_true, if_false]
    omega

theorem toNat64_ofInt (h : 0 ≤ i) : (ofInt i).toNat64 = i.toNat := by
  obtain ⟨n, rfl⟩ := Int.eq_ofNat_of_zero_le h
  rw [← ofNat_eq_ofInt]
  exact toNat64_ofNat exact

private theorem place_ofInt : (ofInt i).place = some (i * one) := by
  rw [ofInt_eq_finite exact, place, signed]
  by_cases negative : i < 0
  · have habs : (i.natAbs : Int) = -i := by omega
    rw [decide_eq_true negative, if_pos rfl, Int.natCast_mul, habs, Int.neg_mul, Int.neg_neg]
  · have habs : (i.natAbs : Int) = i := by omega
    rw [decide_eq_false negative, if_neg Bool.false_ne_true, Int.natCast_mul, habs]

theorem less_zero_ofInt : (ofInt i).less 0 = decide (i < 0) := by
  have hzero : (0 : Number).place = some 0 := congrArg place ofNat_zero
  have hsign : i * one < 0 * one ↔ i < 0 := Int.mul_lt_mul_right (Int.natCast_pos.mpr one_pos)
  rw [Int.zero_mul] at hsign
  have hless : (ofInt i).less 0 = (compare (i * (one : Int)) 0 == .lt) := by
    rw [less, compare?, place_ofInt exact, hzero]
    rfl
  rw [hless, Bool.eq_iff_iff, beq_iff_eq, Int.compare_eq_lt, hsign, decide_eq_true_iff]

end Integers

end Number
end Tabulate
