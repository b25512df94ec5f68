import Tabulate.Frame.Cell
import Tabulate.Proofs.Calendar.Reading
import Tabulate.Proofs.Value.Path

/-! A timestamp cell survives being turned into text: its text stands for no number, so in each format of
timestamps it is read as the instant of the cell. -/
namespace Tabulate

namespace Number

/-- Digits before a mark that no number has stand for none. -/
theorem readDecimal_mark {digits : List Char} (all : ∀ d ∈ digits, d.isDigit = true) (some : digits ≠ [])
    {mark : Char} (other : mark.isDigit = false) (noPoint : mark ≠ '.') (noPower : mark ≠ 'e' ∧ mark ≠ 'E')
    (negative : Bool) (rest : List Char) : readDecimal negative (digits ++ mark :: rest) = none := by
  have htake : takeDigits (digits ++ mark :: rest) = (digits, mark :: rest) :=
    takeDigits_append all (by simpa using other)
  have hsome : digits.isEmpty = false := List.isEmpty_eq_false_iff.mpr some
  simp [readDecimal, htake, hsome, noPoint, noPower]

end Number

namespace Instant
open Calendar

variable {t : Instant}

private theorem exists_text (years : 0 ≤ t.date.year ∧ t.date.year ≤ 9999) :
    ∃ (d : Char) (year rest : List Char), t.text.toList = d :: year ++ '-' :: rest ∧
      (∀ c ∈ d :: year, c.isDigit = true) ∧ t.text.toList.getLast? = some 'Z' ∧ ',' ∉ t.text.toList := by
  have comma : ∀ {width n : Nat}, ',' ∉ padded width n := fun h =>
    Bool.false_ne_true (isDigit_padded _ h)
  obtain ⟨clock, hclock⟩ : ∃ clock : Nat, (clock : Int) = t.seconds % 86400 :=
    ⟨(t.seconds % 86400).toNat, by omega⟩
  have hdate : t.date = ⟨(t.date.year.toNat : Int), t.date.month, t.date.day⟩ := by
    rw [Int.toNat_of_nonneg years.1]
  have htext := toList_text hdate (by omega) hclock
  have hyear : padded 4 t.date.year.toNat ≠ [] := by
    rw [← List.length_pos_iff, length_padded (by decide) (by omega)]
    decide
  obtain ⟨d, year, hcons⟩ := List.exists_cons_of_ne_nil hyear
  have hdigits : ∀ c ∈ d :: year, c.isDigit = true := hcons ▸ isDigit_padded
  refine ⟨d, year, _, by rw [htext, hcons], hdigits, ?_, ?_⟩
  · rw [htext]
    simp [List.getLast?_append, List.getLast?_cons]
  · rw [htext]
    simp [comma]

private theorem ofText?_text (years : 0 ≤ t.date.year ∧ t.date.year ≤ 9999) :
    Unicode.trim t.text.toList = t.text.toList ∧ Number.ofText? t.text = none := by
  obtain ⟨d, year, rest, htext, hdigits, hlast, hcomma⟩ := exists_text years
  have hd : d.isDigit = true := hdigits d List.mem_cons_self
  have hfirst : t.text.toList.head? = some d := by rw [htext]; rfl
  have htrim : Unicode.trim t.text.toList = t.text.toList :=
    Unicode.trim_of_solid hfirst hlast (Unicode.isBlank_of_isDigit hd) (by decide)
  have hread : Number.read? t.text.toList = none := by
    rw [htext, List.cons_append, Number.read?_of_isDigit hd, ← List.cons_append]
    exact Number.readDecimal_mark hdigits (List.cons_ne_nil _ _) (by decide) (by decide) (by decide) _ _
  refine ⟨htrim, ?_⟩
  simp [Number.ofText?, htrim, Number.finite?, hread, hcomma]

end Instant

/-- An instant on a whole millisecond of the years 0 to 9999 comes back from its text in each format of
timestamps. -/
theorem Cell.toCell_toValue_timestamp {t : Instant} (millis : t.IsWholeMillis)
    (years : 0 ≤ t.date.year ∧ t.date.year ≤ 9999) {format : ColumnFormat}
    (timestamps : format.columnType = .timestamp) :
    (Cell.timestamp t).toValue.toCell format none = .timestamp t := by
  obtain ⟨htrim, hnumber⟩ := Instant.ofText?_text years
  have hsome : t.text.toList.isEmpty = false := by
    obtain ⟨d, year, rest, htext, -⟩ := Instant.exists_text years
    rw [htext]
    rfl
  have hread : Timestamp.read? t.text none = some t := by
    simp only [Timestamp.read?, htrim, hsome, Calendar.readInternet?_text millis years]
    rfl
  have hinstant : (Value.string t.text).toInstant? format none = some t := by
    cases format <;> simp only [Value.toInstant?, hnumber, hread]
  rw [Cell.toValue, Value.toCell, timestamps, hinstant]
  rfl

theorem Cell.toCell_toValue_timestamp_leapSecond :
    let t : Instant := ⟨1483228799, 1250000000⟩
    t.IsWholeMillis ∧ (0 ≤ t.date.year ∧ t.date.year ≤ 9999) ∧
      ColumnFormat.epochSeconds.columnType = .timestamp ∧
      (Cell.timestamp t).toValue = .string "2016-12-31T23:59:60.250Z" ∧
      (Cell.timestamp t).toValue.toCell .epochSeconds none = .timestamp t := by
  have millis : Instant.IsWholeMillis ⟨1483228799, 1250000000⟩ := ⟨by decide, .inr (by decide)⟩
  have years : 0 ≤ (Instant.date ⟨1483228799, 1250000000⟩).year ∧
      (Instant.date ⟨1483228799, 1250000000⟩).year ≤ 9999 := by decide +kernel
  have htext : Instant.text ⟨1483228799, 1250000000⟩ = "2016-12-31T23:59:60.250Z" := by decide +kernel
  exact ⟨millis, years, rfl, congrArg Value.string htext,
    Cell.toCell_toValue_timestamp millis years rfl⟩

end Tabulate
