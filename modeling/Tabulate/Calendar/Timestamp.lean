import Tabulate.Calendar.Reading
import Tabulate.Unicode.Case

/-! Timestamps as texts and as numbers. A text may follow a pattern of its own, a standard
format, one of the known layouts, or state only a year, a month or an epoch. -/
namespace Tabulate.Timestamp
open Calendar

private def knownLayouts : List String :=
  ["%Y-%m-%d %H:%M:%S%.f%:z", "%Y-%m-%d %H:%M:%S%.f%z", "%Y-%m-%dT%H:%M:%S%.f%z",
    "%Y-%m-%d %H:%M:%S%.f %z",
    "%Y-%m-%dT%H:%M:%S%.f", "%Y-%m-%d %H:%M:%S%.f", "%Y-%m-%dT%H:%M", "%Y-%m-%d %H:%M",
    "%Y/%m/%d %H:%M:%S%.f", "%Y/%m/%d %H:%M",
    "%Y-%m-%d", "%Y/%m/%d", "%Y.%m.%d"]

def ofEpochMillis? (millis : Number) : Option Instant :=
  if millis.isFinite then Instant.ofMillis? millis.round.toInt64 else none

/-- The instant of so many seconds; the fraction is rounded to nanoseconds within its second. -/
def ofEpochSeconds? (seconds : Number) : Option Instant :=
  if seconds.isFinite then
    let whole := seconds.floor
    let nanos := (((seconds.sub whole).mul 1000000000).round.toIntWithin 0 999999999).toNat
    Instant.of? whole.toInt64 nanos
  else none

def byLayout? (text layout : List Char) : Option Instant := do
  (← (← Layout.ofText? layout).read? text).resolve?

private def firstDay? (year month : List Char) : Option Instant :=
  (Date.of? (digitsValue year) (digitsValue month) 1).map Instant.ofDate

/-- A year of four digits, ten or more digits of milliseconds, or a year and a month. -/
private def partial? (text : List Char) : Option Instant :=
  if text.all Char.isDigit && text.length == 4 then firstDay? text ['1']
  else if text.all Char.isDigit && 10 ≤ text.length then
    (Number.read? text).bind ofEpochMillis?
  else
    let isSeparator (c : Char) : Bool := c = '-' || c = '/'
    let year := text.takeWhile (!isSeparator ·)
    match text.dropWhile (!isSeparator ·) with
    | [] => none
    | _ :: month =>
      if year.length = 4 ∧ (month.length = 1 ∨ month.length = 2) ∧ (year ++ month).all Char.isDigit then
        firstDay? year month
      else none

/-- Reads a timestamp; a pattern that is not blank is tried first. -/
def read? (text : String) (pattern : Option String) : Option Instant :=
  let text := Unicode.trim text.toList
  if text.isEmpty then none
  else
    let patterned := do
      let pattern ← pattern
      if pattern.toList.all Unicode.isBlank then none else byLayout? text pattern.toList
    patterned.orElse fun _ =>
    (readInternet? text).orElse fun _ =>
    (readMail? text).orElse fun _ =>
    (knownLayouts.findSome? fun layout => byLayout? text layout.toList).orElse fun _ =>
    partial? text

end Tabulate.Timestamp
