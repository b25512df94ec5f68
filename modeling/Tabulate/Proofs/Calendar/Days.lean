import Mathlib.Tactic.IntervalCases
import Mathlib.Tactic.SplitIfs
import Tabulate.Calendar.Date

/-! Days and their dates: the date of a day number is one of the calendar, and its day number is that
number. Years are counted from March here, as the day numbers are, so a leap day ends its year. -/
namespace Tabulate.Date

def daysBefore (year : Int) : Int := 365 * year + year / 4 - year / 100

private theorem isLeap_iff {year : Int} :
    isLeap year = true ↔ year % 4 = 0 ∧ (year % 100 ≠ 0 ∨ year % 400 = 0) := by
  simp [isLeap]

private theorem isLeap_add_cycles (year cycle : Int) : isLeap (year + cycle * 400) = isLeap year := by
  rw [Bool.eq_iff_iff, isLeap_iff, isLeap_iff]
  omega

private theorem yearOfCycle_spec {d : Int} (h0 : 0 ≤ d) (h1 : d < 146097) {year : Int}
    (hyear : year = (d - d / 1460 + d / 36524 - d / 146096) / 365) :
    0 ≤ year ∧ year ≤ 399 ∧ daysBefore year ≤ d ∧ d ≤ daysBefore year + 365 ∧
      (d = daysBefore year + 365 → isLeap (year + 1) = true) := by
  -- a century has 36524 days, the last day of a cycle aside, and four years in it have 1461
  by_cases last : d = 146096
  · subst last hyear
    decide
  obtain ⟨k, hk⟩ : ∃ k, k = d / 36524 := ⟨_, rfl⟩
  obtain ⟨q, hq⟩ : ∃ q, q = d % 36524 / 1461 := ⟨_, rfl⟩
  obtain ⟨s, hs⟩ : ∃ s, s = d % 36524 % 1461 := ⟨_, rfl⟩
  obtain ⟨z, hz⟩ : ∃ z, z = min (s / 365) 3 := ⟨_, rfl⟩
  have hd : d = 36524 * k + 1461 * q + s := by omega
  have hquads : d / 1460 = 25 * k + q + (24 * k + q + s) / 1460 := by omega
  have hlast : d / 146096 = 0 := by omega
  have hy : year = 100 * k + 4 * q + z := by
    rw [hyear, hquads, hlast, ← hk]
    omega
  have hcentury : q ≤ 24 ∧ z ≤ 3 ∧ 0 ≤ q ∧ 0 ≤ z := by omega
  have hbefore : daysBefore year = 36524 * k + 1461 * q + 365 * z := by
    have hquarter : year / 4 = 25 * k + q := by omega
    have hhundredth : year / 100 = k := by omega
    rw [daysBefore, hquarter, hhundredth, hy]
    omega
  rw [hbefore, isLeap_iff]
  clear hyear hquads hlast hbefore
  omega

private theorem monthOfYear_spec {dayOfYear month day : Int} (h0 : 0 ≤ dayOfYear) (h1 : dayOfYear ≤ 365)
    (hmonth : month = (5 * dayOfYear + 2) / 153) (hday : day = dayOfYear - (153 * month + 2) / 5 + 1) :
    0 ≤ month ∧ month ≤ 11 ∧ 1 ≤ day ∧
      day ≤ (153 * (month + 1) + 2) / 5 - (153 * month + 2) / 5 ∧
      (month = 11 → day ≤ 29 ∧ (day = 29 → dayOfYear = 365)) := by
  -- from March on five months have 153 days
  omega

private theorem exists_parts (n : Int) : ∃ cycle year month day : Int,
    ofDayNumber n = ⟨if month < 10 then year + cycle * 400 else year + cycle * 400 + 1,
      (if month < 10 then month + 3 else month - 9).toNat, day.toNat⟩ ∧
    n = cycle * 146097 + daysBefore year + (153 * month + 2) / 5 + day - 1 - 719468 ∧
    0 ≤ year ∧ year ≤ 399 ∧ 0 ≤ month ∧ month ≤ 11 ∧ 1 ≤ day ∧
    day ≤ (153 * (month + 1) + 2) / 5 - (153 * month + 2) / 5 ∧
    (month = 11 → day ≤ 29 ∧ (day = 29 → isLeap (year + 1) = true)) := by
  obtain ⟨cycle, hcycle⟩ : ∃ cycle, cycle = (n + 719468) / 146097 := ⟨_, rfl⟩
  obtain ⟨d, hd⟩ : ∃ d, d = (n + 719468) % 146097 := ⟨_, rfl⟩
  obtain ⟨year, hyear⟩ : ∃ year, year = (d - d / 1460 + d / 36524 - d / 146096) / 365 := ⟨_, rfl⟩
  obtain ⟨dayOfYear, hdayOfYear⟩ : ∃ e, e = d - daysBefore year := ⟨_, rfl⟩
  obtain ⟨month, hmonth⟩ : ∃ month, month = (5 * dayOfYear + 2) / 153 := ⟨_, rfl⟩
  obtain ⟨day, hday⟩ : ∃ day, day = dayOfYear - (153 * month + 2) / 5 + 1 := ⟨_, rfl⟩
  obtain ⟨hlow, hhigh, hfirst, hlast, hleap⟩ := yearOfCycle_spec (by omega) (by omega) hyear
  obtain ⟨hmonthLow, hmonthHigh, hdayLow, hdayHigh, hlastMonth⟩ :=
    monthOfYear_spec (by omega) (by omega) hmonth hday
  refine ⟨cycle, year, month, day, ?_, by omega, hlow, hhigh, hmonthLow, hmonthHigh, hdayLow, hdayHigh,
    fun h => ⟨(hlastMonth h).1, fun h' => hleap ?_⟩⟩
  · rw [daysBefore] at hdayOfYear
    simp only [ofDayNumber, ← hcycle, ← hd, ← hyear, ← hdayOfYear, ← hmonth, ← hday]
    split_ifs <;> first | rfl | omega
  · rw [← (hlastMonth h).2 h', hdayOfYear]
    omega

/-- The date of a day number has that day number. -/
theorem dayNumber_ofDayNumber (n : Int) : (ofDayNumber n).dayNumber = n := by
  obtain ⟨cycle, year, month, day, hdate, hn, hlow, hhigh, hfirst, hlast, hday, -, -⟩ := exists_parts n
  rw [daysBefore] at hn
  simp only [hdate, dayNumber]
  split_ifs <;> omega

private theorem day_le_daysInMonth (n : Int) :
    (ofDayNumber n).day ≤ daysInMonth (ofDayNumber n).year (ofDayNumber n).month := by
  obtain ⟨cycle, year, month, day, hdate, -, -, -, hfirst, hlast, hday, hlength, hleap⟩ := exists_parts n
  rw [hdate]
  dsimp only
  by_cases february : month = 11
  · subst february
    obtain ⟨hmost, hleap⟩ := hleap rfl
    have hyear : year + cycle * 400 + 1 = year + 1 + cycle * 400 := by omega
    rw [if_neg (by decide), if_neg (by decide), hyear]
    change day.toNat ≤ if isLeap (year + 1 + cycle * 400) then 29 else 28
    rw [isLeap_add_cycles]
    split_ifs with h
    · omega
    · have : day ≠ 29 := fun heq => h (hleap heq)
      omega
  · have : month ≤ 10 := by omega
    interval_cases month <;> simp [daysInMonth] <;> omega

/-- The date of a day number is in the calendar. -/
theorem of?_ofDayNumber {n : Int} (h : isYear (ofDayNumber n).year = true) :
    of? (ofDayNumber n).year (ofDayNumber n).month (ofDayNumber n).day = some (ofDayNumber n) := by
  have hlength := day_le_daysInMonth n
  obtain ⟨cycle, year, month, day, hdate, -, -, -, hfirst, hlast, hday, -, -⟩ := exists_parts n
  have hmonth : 1 ≤ (ofDayNumber n).month ∧ (ofDayNumber n).month ≤ 12 := by
    rw [hdate]
    dsimp only
    split_ifs <;> omega
  have hpositive : 1 ≤ (ofDayNumber n).day := by
    rw [hdate]
    dsimp only
    omega
  rw [of?, if_pos]
  simp only [h, hmonth, hpositive, hlength, decide_true, Bool.and_self]

theorem isYear_of_bounds {year : Int} (h : 0 ≤ year ∧ year ≤ 9999) : isYear year = true := by
  have low : minYear ≤ year := Int.le_trans (by decide) h.1
  have high : year ≤ maxYear := Int.le_trans h.2 (by decide)
  rw [isYear, decide_eq_true low, decide_eq_true high]
  rfl

private theorem daysInMonth_le (year : Int) (month : Nat) : daysInMonth year month ≤ 31 := by
  unfold daysInMonth
  split <;> first | decide | (split_ifs <;> decide)

theorem bounds_of_of? {year : Int} {month day : Nat} {date : Date} (h : of? year month day = some date) :
    (1 ≤ month ∧ month ≤ 12) ∧ 1 ≤ day ∧ day ≤ 31 := by
  have hlength := daysInMonth_le year month
  rw [of?] at h
  split_ifs at h with hparts
  simp only [Bool.and_eq_true, decide_eq_true_eq] at hparts
  omega

end Tabulate.Date
