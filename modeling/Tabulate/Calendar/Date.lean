/-! Days of the proleptic Gregorian calendar, counted from the first of January 1970. -/
namespace Tabulate

structure Date where
  year : Int
  month : Nat
  day : Nat
deriving DecidableEq

namespace Date

def isLeap (year : Int) : Bool := year % 4 == 0 && (year % 100 != 0 || year % 400 == 0)

def daysInMonth (year : Int) (month : Nat) : Nat :=
  match month with
  | 2 => if isLeap year then 29 else 28
  | 4 | 6 | 9 | 11 => 30
  | _ => 31

/-- The years that a date may lie in. -/
def minYear : Int := -262143
def maxYear : Int := 262142

def isYear (year : Int) : Bool := minYear ≤ year && year ≤ maxYear

def of? (year : Int) (month day : Nat) : Option Date :=
  if isYear year && 1 ≤ month && month ≤ 12 && 1 ≤ day && day ≤ daysInMonth year month then
    some ⟨year, month, day⟩
  else none

/-- The day number. Years are counted from March, so that a leap day ends its year,
in cycles of 400 years. -/
def dayNumber (d : Date) : Int :=
  let year := if d.month ≤ 2 then d.year - 1 else d.year
  let cycle := year / 400
  let yearOfCycle := year % 400
  let monthFromMarch : Int := if d.month ≤ 2 then d.month + 9 else d.month - 3
  let dayOfYear := (153 * monthFromMarch + 2) / 5 + d.day - 1
  let dayOfCycle := yearOfCycle * 365 + yearOfCycle / 4 - yearOfCycle / 100 + dayOfYear
  cycle * 146097 + dayOfCycle - 719468

def ofDayNumber (n : Int) : Date :=
  let shifted := n + 719468
  let cycle := shifted / 146097
  let dayOfCycle := shifted % 146097
  let yearOfCycle :=
    (dayOfCycle - dayOfCycle / 1460 + dayOfCycle / 36524 - dayOfCycle / 146096) / 365
  let dayOfYear := dayOfCycle - (365 * yearOfCycle + yearOfCycle / 4 - yearOfCycle / 100)
  let monthFromMarch := (5 * dayOfYear + 2) / 153
  let day := dayOfYear - (153 * monthFromMarch + 2) / 5 + 1
  let month := if monthFromMarch < 10 then monthFromMarch + 3 else monthFromMarch - 9
  let year := yearOfCycle + cycle * 400
  ⟨if month ≤ 2 then year + 1 else year, month.toNat, day.toNat⟩

def ofDayNumber? (n : Int) : Option Date :=
  let date := ofDayNumber n
  if isYear date.year then some date else none

def ordinal (d : Date) : Int := d.dayNumber - dayNumber ⟨d.year, 1, 1⟩ + 1

def ofOrdinal? (year ordinal : Int) : Option Date :=
  if isYear year && 1 ≤ ordinal && ordinal ≤ (if isLeap year then 366 else 365) then
    some (ofDayNumber (dayNumber ⟨year, 1, 1⟩ + ordinal - 1))
  else none

/-- The day of the week, from Monday at zero. -/
def weekday (d : Date) : Int := (d.dayNumber + 3) % 7

def quarter (d : Date) : Int := (d.month + 2) / 3

/-- The number of the week that a date lies in, if weeks start on the given weekday and
the days before the first such day are week zero. -/
def weekFrom (start : Int) (d : Date) : Int := (d.ordinal - (d.weekday - start) % 7 + 6) / 7

/-- The year and the number of the week of a date; a week belongs to the year of its Thursday. -/
def thursdayWeek (d : Date) : Int × Int :=
  let thursday := ofDayNumber (d.dayNumber - d.weekday + 3)
  (thursday.year, (thursday.ordinal - 1) / 7 + 1)

/-- The date of a weekday in a week of a year, if weeks start on the given weekday and the
days before the first such day are week zero. -/
def ofWeek? (start year week day : Int) : Option Date :=
  let newYear : Date := ⟨year, 1, 1⟩
  let first := (start - newYear.weekday) % 7 + 1
  ofOrdinal? year (first + (week - 1) * 7 + (day - start) % 7)

def ofThursdayWeek? (year week day : Int) : Option Date :=
  let fourth : Date := ⟨year, 1, 4⟩
  let date := ofDayNumber (fourth.dayNumber - fourth.weekday + (week - 1) * 7 + day)
  if isYear year && isYear date.year && date.thursdayWeek == (year, week) then some date else none

end Date
end Tabulate
