import Tabulate.Calendar.Date

/-! Points in time: whole seconds from the first of January 1970 and a fraction. -/
namespace Tabulate

/-- A point in time. A fraction of a second or more is a leap second. -/
structure Instant where
  seconds : Int
  nanos : Nat
deriving DecidableEq

namespace Instant

def secondsPerDay : Int := 86400

def of? (seconds : Int) (nanos : Nat) : Option Instant :=
  (Date.ofDayNumber? (seconds / secondsPerDay)).map fun _ => ⟨seconds, nanos⟩

def ofMillis? (millis : Int) : Option Instant :=
  of? (millis / 1000) ((millis % 1000).toNat * 1000000)

def ofDate (date : Date) : Instant := ⟨date.dayNumber * secondsPerDay, 0⟩

def millis (t : Instant) : Int := t.seconds * 1000 + t.nanos / 1000000

def date (t : Instant) : Date := Date.ofDayNumber (t.seconds / secondsPerDay)

def padded (width n : Nat) : List Char :=
  let digits := (toString n).toList
  List.replicate (width - digits.length) '0' ++ digits

/-- A year of four digits; one beyond them has a sign. -/
def yearText (year : Int) : List Char :=
  if 0 ≤ year && year ≤ 9999 then padded 4 year.toNat
  else (if year < 0 then '-' else '+') :: padded 4 year.natAbs

def text (t : Instant) : String :=
  let date := t.date
  let second := (t.seconds % secondsPerDay).toNat
  let leap := t.nanos / 1000000000
  String.ofList <| yearText date.year ++ '-' :: padded 2 date.month ++ '-' :: padded 2 date.day
    ++ 'T' :: padded 2 (second / 3600) ++ ':' :: padded 2 (second / 60 % 60)
    ++ ':' :: padded 2 (second % 60 + leap) ++ '.' :: padded 3 (t.nanos / 1000000 % 1000) ++ ['Z']

end Instant
end Tabulate
