import Tabulate.Calendar.Reading
import Tabulate.Proofs.Calendar.Days
import Tabulate.Proofs.Number.Digits

/-! The text of an instant in a year of four digits is read as that instant: each part of the text states
its field, and the stated fields fix the date and the time. -/
namespace Tabulate

namespace Instant

/-- Whether an instant lies on a whole millisecond. A fraction of a second or more belongs to a leap
second, which only the last second of a minute is followed by. -/
structure IsWholeMillis (t : Instant) : Prop where
  fraction : t.nanos % 1000000 = 0
  second : t.nanos < 1000000000 ∨ t.nanos < 2000000000 ∧ t.seconds % 60 = 59

section Padding
variable {width n : Nat}

theorem isDigit_padded : ∀ d ∈ padded width n, d.isDigit = true := by
  intro d hd
  rw [padded, Nat.toString_eq_ofList_toDigits, String.toList_ofList] at hd
  rcases List.mem_append.mp hd with hzero | hdigit
  · rw [List.eq_of_mem_replicate hzero]
    rfl
  · exact isDigit_toDigits d hdigit

private theorem digitsValue_padded : digitsValue (padded width n) = n := by
  rw [padded, Nat.toString_eq_ofList_toDigits, String.toList_ofList, digitsValue_zeros_append,
    digitsValue_toDigits]

/-- A number that fits a width fills it. -/
theorem length_padded (positive : 0 < width) (h : n < 10 ^ width) : (padded width n).length = width := by
  have hfits := (Nat.length_toDigits_le_iff (by decide) positive).mpr h
  rw [padded, Nat.toString_eq_ofList_toDigits, String.toList_ofList, List.length_append,
    List.length_replicate, Nat.sub_add_cancel hfits]

end Padding

end Instant

namespace Calendar
open Instant

section Parts
variable {digits rest : List Char} {s : Stated} {field : Field} {low high width n : Nat}

/-- As many digits as are there are read, if there are neither too few nor too many. -/
theorem readDigits?_append (all : ∀ d ∈ digits, d.isDigit = true)
    (ends : ∀ c ∈ rest.head?, c.isDigit = false) (enough : low ≤ digits.length)
    (fits : digits.length ≤ high) (small : digitsValue digits < twoTo 63) :
    readDigits? low (some high) (digits ++ rest) = some (digitsValue digits, rest) := by
  have hshort : ¬ digits.length < low := Nat.not_lt.mpr enough
  simp only [readDigits?, takeDigits_append all ends, List.take_of_length_le fits, hshort,
    Nat.not_le.mpr small, decide_false, Bool.false_or, Bool.false_eq_true, if_false, List.drop_left]

private theorem lt_word (width_le : width ≤ 4) (h : n < 10 ^ width) : n < twoTo 63 :=
  Nat.lt_trans (Nat.lt_of_lt_of_le h (Nat.pow_le_pow_right (by decide) width_le)) (by decide)

private theorem readDigits?_padded (width_pos : 0 < width) (width_le : width ≤ 4) (h : n < 10 ^ width)
    (ends : ∀ c ∈ rest.head?, c.isDigit = false) :
    readDigits? width (some width) (padded width n ++ rest) = some (n, rest) := by
  have hlength := length_padded width_pos h
  have hread := readDigits?_append isDigit_padded ends (Nat.le_of_eq hlength.symm) (Nat.le_of_eq hlength)
    (digitsValue_padded ▸ lt_word width_le h)
  rwa [digitsValue_padded] at hread

private theorem state?_of_bounds {value : Int} (bounds : field.bounds.1 ≤ value ∧ value ≤ field.bounds.2)
    (fresh : s.get? field = none) : s.state? field value = some ((field, value) :: s) := by
  have hbounds : (decide (value < field.bounds.1) || decide (field.bounds.2 < value)) = false := by
    simp [bounds]
  rw [Stated.state?, hbounds, fresh]
  rfl

private theorem stateDigits?_padded (width_pos : 0 < width) (width_le : width ≤ 4) (h : n < 10 ^ width)
    (ends : ∀ c ∈ rest.head?, c.isDigit = false) (bounds : field.bounds.1 ≤ n ∧ n ≤ field.bounds.2)
    (fresh : s.get? field = none) :
    stateDigits? field width (padded width n ++ rest, s) = some (rest, (field, (n : Int)) :: s) := by
  rw [stateDigits?, readDigits?_padded width_pos width_le h ends]
  change (s.state? field n).bind _ = _
  rw [state?_of_bounds bounds fresh]
  rfl

private theorem stateTwo?_padded {c : Char} (h : n < 100) (mark : c.isDigit = false)
    (bounds : field.bounds.1 ≤ n ∧ n ≤ field.bounds.2) (fresh : s.get? field = none) :
    stateDigits? field 2 (padded 2 n ++ c :: rest, s) = some (c :: rest, (field, (n : Int)) :: s) :=
  stateDigits?_padded (by decide) (by decide) h (by simpa using mark) bounds fresh

private theorem passOver?_cons (c : Char) : passOver? c (c :: rest, s) = some (rest, s) := by
  rw [passOver?, expect?, if_pos rfl]
  rfl

private theorem stateHour?_of_lt {hour : Nat} (h : hour < 24) (fresh : s.get? .half = none)
    (fresh' : s.get? .hourOfHalf = none) :
    s.stateHour? hour = some ((.hourOfHalf, (hour : Int) % 12) :: (.half, (hour : Int) / 12) :: s) := by
  have hbounds : (decide ((hour : Int) < 0) || decide ((23 : Int) < hour)) = false := by
    simp
    omega
  have hhalf : s.state? .half ((hour : Int) / 12) = some ((.half, (hour : Int) / 12) :: s) :=
    state?_of_bounds (by simp [Field.bounds]; omega) fresh
  have hhour : Stated.state? ((.half, (hour : Int) / 12) :: s) .hourOfHalf ((hour : Int) % 12) =
      some ((.hourOfHalf, (hour : Int) % 12) :: (.half, (hour : Int) / 12) :: s) :=
    state?_of_bounds (by simp [Field.bounds]; omega) fresh'
  rw [Stated.stateHour?, hhalf, hbounds]
  exact hhour

private theorem readFraction?_padded {milli nano : Nat} (h : milli < 1000) (hnano : nano = milli * 1000000) :
    readFraction? (padded 3 milli ++ ['Z']) = some (nano, ['Z']) := by
  have hlength : (padded 3 milli).length = 3 := length_padded (by decide) h
  have hend : ∀ c ∈ ['Z'].head?, c.isDigit = false := by simp
  have hsmall : digitsValue (padded 3 milli) < twoTo 63 := by
    rw [digitsValue_padded]
    exact Nat.lt_trans h (by decide)
  have hread : readDigits? 1 (some 9) (padded 3 milli ++ ['Z']) =
      some (digitsValue (padded 3 milli), ['Z']) :=
    readDigits?_append isDigit_padded hend (by omega) (by omega) hsmall
  rw [readFraction?, hread, digitsValue_padded]
  change some (milli * tenTo (9 - ((padded 3 milli ++ ['Z']).length - 1)), _) = _
  rw [List.length_append, hlength, hnano]
  rfl

end Parts

def fullyStated (year month day hour minute second nano : Nat) : Stated :=
  [(.offset, 0), (.nano, nano), (.second, second), (.minute, minute),
    (.hourOfHalf, (hour : Int) % 12), (.half, (hour : Int) / 12), (.day, day), (.month, month), (.year, year)]

section Text
variable {year month day hour minute second milli nano : Nat}

/-- Padded parts with the marks between them state all fields. -/
theorem readInternet?_padded (hyear : year < 10000) (hmonth : 1 ≤ month ∧ month ≤ 12)
    (hday : 1 ≤ day ∧ day ≤ 31) (hhour : hour < 24) (hminute : minute < 60) (hsecond : second ≤ 60)
    (hmilli : milli < 1000) (hnano : nano = milli * 1000000) :
    readInternet? (padded 4 year ++ '-' :: (padded 2 month ++ '-' :: (padded 2 day ++ 'T' ::
      (padded 2 hour ++ ':' :: (padded 2 minute ++ ':' :: (padded 2 second ++ '.' ::
        (padded 3 milli ++ ['Z']))))))) =
      (fullyStated year month day hour minute second nano).instant? := by
  have ends : ∀ {c : Char} {rest : List Char}, c.isDigit = false →
      ∀ d ∈ (c :: rest).head?, d.isDigit = false := by simp
  have hyearBounds : Field.year.bounds.1 ≤ (year : Int) ∧ (year : Int) ≤ Field.year.bounds.2 := by
    have : Field.year.bounds = (-2147483648, 2147483647) := by decide
    rw [this]
    omega
  -- The parts are read from left to right, and each puts its field before those that are stated.
  rw [readInternet?, stateDigits?_padded (by decide) (by decide) hyear (ends (by decide)) hyearBounds rfl]
  simp only [Option.bind_eq_bind, Option.bind_some, passOver?_cons]
  rw [stateTwo?_padded (by omega) (by decide) (by simp only [Field.bounds]; omega) rfl]
  simp only [Option.bind_some, passOver?_cons]
  rw [stateTwo?_padded (by omega) (by decide) (by simp only [Field.bounds]; omega) rfl]
  simp only [Option.bind_some]
  rw [readDigits?_padded (by decide) (by decide) (by omega) (ends (by decide))]
  simp only [Option.bind_some]
  rw [stateHour?_of_lt hhour rfl rfl]
  simp only [Option.bind_some, passOver?_cons]
  rw [stateTwo?_padded (by omega) (by decide) (by simp only [Field.bounds]; omega) rfl]
  simp only [Option.bind_some, passOver?_cons]
  rw [stateTwo?_padded (by omega) (by decide) (by simp only [Field.bounds]; omega) rfl]
  simp only [Option.bind_some, readFraction?_padded hmilli hnano]
  rw [state?_of_bounds (by simp only [Field.bounds]; omega) rfl]
  have hoffset : readOffset? (expect? ':') true false true ['Z'] = some (0, []) := rfl
  rw [hoffset]
  rfl

end Text

section Fixing
variable {s : Stated} {date : Date}

private theorem agrees_of_none {field : Field} (h : s.get? field = none) (value : Int) :
    s.agrees field value = true := by
  rw [Stated.agrees, h]

private theorem agrees_of_some {field : Field} {value : Int} (h : s.get? field = some value) :
    s.agrees field value = true := by
  rw [Stated.agrees, h]
  exact beq_self_eq_true value

def furtherDateFields : List Field :=
  [.century, .yearOfCentury, .weekYear, .weekCentury, .weekYearOfCentury, .quarter, .ordinal,
    .weekFromSunday, .weekFromMonday, .week, .weekday]

/-- A year, a month and a day alone fix the date that they make. -/
theorem date_of_stated (hyear : s.get? .year = some date.year)
    (hmonth : s.get? .month = some (date.month : Int)) (hday : s.get? .day = some (date.day : Int))
    (alone : ∀ field ∈ furtherDateFields, s.get? field = none)
    (h : Date.of? date.year date.month date.day = some date) : s.date = .ok date := by
  simp only [furtherDateFields, List.forall_mem_cons] at alone
  obtain ⟨hcentury, hyearOfCentury, hweekYear, hweekCentury, hweekYearOfCentury, hquarter, hordinal,
    hfromSunday, hfromMonday, hweek, hweekday, -⟩ := alone
  have agreesDay : s.agreesDay date = true := by
    simp [Stated.agreesDay, Stated.agreesYear, agrees_of_some hyear, agrees_of_some hmonth,
      agrees_of_some hday, agrees_of_none hcentury, agrees_of_none hyearOfCentury, hcentury, hyearOfCentury]
  have agreesWeek : s.agreesWeek date = true := by
    simp [Stated.agreesWeek, Stated.agreesYear, agrees_of_none hweekYear, agrees_of_none hweek,
      agrees_of_none hweekday, agrees_of_none hweekCentury, agrees_of_none hweekYearOfCentury,
      hweekCentury, hweekYearOfCentury]
  have agreesOrdinal : s.agreesOrdinal date = true := by
    simp [Stated.agreesOrdinal, agrees_of_none hordinal, agrees_of_none hfromSunday,
      agrees_of_none hfromMonday]
  have fullYear : s.year? .year .century .yearOfCentury = .ok (some date.year) := by
    rw [Stated.year?, hyear, hcentury, hyearOfCentury]
  have noWeekYear : s.year? .weekYear .weekCentury .weekYearOfCentury = .ok none := by
    rw [Stated.year?, hweekYear, hweekCentury, hweekYearOfCentury]
  have agreed : (s.agreesDay date && s.agreesWeek date && s.agreesOrdinal date &&
      s.agrees .quarter date.quarter) = true := by
    rw [agreesDay, agreesWeek, agreesOrdinal, agrees_of_none hquarter]
    rfl
  simp only [Stated.date, fullYear, noWeekYear, hmonth, hday, Int.toNat_natCast, bind, Except.bind, pure,
    Except.pure, h, agreed, if_true]

/-- An hour, a minute, a second and a fraction fix a time. The sixtieth second stands behind the
fifty-ninth, with a fraction of a second or more. -/
theorem time_of_stated {half hour minute second : Int} {nano : Nat} (hhalf : s.get? .half = some half)
    (hhour : s.get? .hourOfHalf = some hour) (hminute : s.get? .minute = some minute)
    (hsecond : s.get? .second = some second) (hnano : s.get? .nano = some (nano : Int)) :
    s.time = .ok (if second = 60 then ((half * 12 + hour) * 3600 + minute * 60 + 59, 1000000000 + nano)
      else ((half * 12 + hour) * 3600 + minute * 60 + second, nano)) := by
  simp only [Stated.time, hhalf, hhour, hminute, hsecond, hnano, Option.getD_some, Int.toNat_natCast]
  split <;> rfl

private theorem localInstant?_of_ok {second : Int} {nanos : Nat} (hdate : s.date = .ok date)
    (htime : s.time = .ok (second, nanos)) (hepoch : s.get? .epoch = none) (offset : Int) :
    s.localInstant? offset = some ⟨date.dayNumber * secondsPerDay + second, nanos⟩ := by
  rw [Stated.localInstant?, hdate, htime]
  simp only [hepoch]

end Fixing

/-- A full statement in universal time fixes the second of its day. -/
theorem instant?_fullyStated {year month day hour minute second nano : Nat}
    (h : Date.of? year month day = some ⟨year, month, day⟩) :
    (fullyStated year month day hour minute second nano).instant? =
      Instant.of? (Date.dayNumber ⟨year, month, day⟩ * secondsPerDay +
          ((hour : Int) * 3600 + minute * 60 + if second = 60 then 59 else (second : Int)))
        (if second = 60 then 1000000000 + nano else nano) := by
  obtain ⟨s, hs⟩ : ∃ s, s = fullyStated year month day hour minute second nano := ⟨_, rfl⟩
  have hdate : s.date = .ok ⟨year, month, day⟩ := by
    subst hs
    refine date_of_stated rfl rfl rfl ?_ h
    simp only [furtherDateFields, List.forall_mem_cons]
    exact ⟨rfl, rfl, rfl, rfl, rfl, rfl, rfl, rfl, rfl, rfl, rfl, nofun⟩
  have htime : s.time = .ok ((hour : Int) * 3600 + minute * 60 + (if second = 60 then 59 else (second : Int)),
      if second = 60 then 1000000000 + nano else nano) := by
    have hhour : (hour : Int) / 12 * 12 + hour % 12 = hour := by omega
    subst hs
    rw [time_of_stated rfl rfl rfl rfl rfl, hhour]
    by_cases hsecond : second = 60
    · subst hsecond
      rfl
    · have hsecond' : (second : Int) ≠ 60 := by omega
      rw [if_neg hsecond, if_neg hsecond', if_neg hsecond]
  have hlocal := localInstant?_of_ok hdate htime (by subst hs; rfl) 0
  have hoffset : s.get? .offset = some 0 := by subst hs; rfl
  rw [← hs, Stated.instant?, hoffset]
  simp only [Option.bind_eq_bind, Option.bind_some, hlocal, Int.sub_zero]
  rfl

/-- The text of an instant in a year of four digits, part by part. -/
theorem toList_text {t : Instant} {year month day clock : Nat} (hdate : t.date = ⟨year, month, day⟩)
    (hyear : year < 10000) (hclock : (clock : Int) = t.seconds % 86400) :
    t.text.toList = padded 4 year ++ '-' :: (padded 2 month ++ '-' :: (padded 2 day ++ 'T' ::
      (padded 2 (clock / 3600) ++ ':' :: (padded 2 (clock / 60 % 60) ++ ':' ::
        (padded 2 (clock % 60 + t.nanos / 1000000000) ++ '.' ::
          (padded 3 (t.nanos / 1000000 % 1000) ++ ['Z'])))))) := by
  have hclock' : (t.seconds % secondsPerDay).toNat = clock := by
    rw [secondsPerDay]
    omega
  have hfour : (decide (0 ≤ (year : Int)) && decide ((year : Int) ≤ 9999)) = true := by
    simp
    omega
  simp only [text, hdate, hclock', yearText, hfour, if_true, Int.toNat_natCast, String.toList_ofList,
    List.append_assoc, List.cons_append]

/-- The text of an instant in a year of four digits is read as the instant. -/
theorem readInternet?_text {t : Instant} (millis : t.IsWholeMillis)
    (years : 0 ≤ t.date.year ∧ t.date.year ≤ 9999) : readInternet? t.text.toList = some t := by
  obtain ⟨fraction, second⟩ := millis
  obtain ⟨clock, hclock⟩ : ∃ clock : Nat, (clock : Int) = t.seconds % 86400 :=
    ⟨(t.seconds % 86400).toNat, by omega⟩
  have hnumber : t.date.dayNumber = t.seconds / secondsPerDay := Date.dayNumber_ofDayNumber _
  have hdate : Date.of? t.date.year t.date.month t.date.day = some t.date :=
    Date.of?_ofDayNumber (Date.isYear_of_bounds years)
  have hinstant : Instant.of? t.seconds t.nanos = some t := by
    have hyears : Date.isYear (Date.ofDayNumber (t.seconds / secondsPerDay)).year = true :=
      Date.isYear_of_bounds years
    rw [Instant.of?, Date.ofDayNumber?, hyears]
    rfl
  obtain ⟨year, month, day, hparts⟩ : ∃ year month day : Nat, t.date = ⟨year, month, day⟩ :=
    ⟨t.date.year.toNat, t.date.month, t.date.day, by rw [Int.toNat_of_nonneg years.1]⟩
  rw [hparts] at hnumber hdate years
  obtain ⟨hmonth, hday⟩ := Date.bounds_of_of? hdate
  dsimp only at years hdate hmonth hday
  have hseconds : t.seconds / secondsPerDay * secondsPerDay + (((clock / 3600 : Nat) : Int) * 3600 +
      ((clock / 60 % 60 : Nat) : Int) * 60 + if clock % 60 + t.nanos / 1000000000 = 60 then 59
        else ((clock % 60 + t.nanos / 1000000000 : Nat) : Int)) = t.seconds := by
    rw [secondsPerDay]
    split <;> omega
  have hnanos : (if clock % 60 + t.nanos / 1000000000 = 60 then
      1000000000 + t.nanos / 1000000 % 1000 * 1000000 else t.nanos / 1000000 % 1000 * 1000000) =
      t.nanos := by
    split <;> omega
  rw [toList_text hparts (by omega) hclock, readInternet?_padded (by omega) hmonth hday (by omega)
    (by omega) (by omega) (by omega) rfl, instant?_fullyStated hdate, hnumber, hseconds, hnanos, hinstant]

end Calendar
end Tabulate
