import Tabulate.Calendar.Fields
import Tabulate.Unicode.Class

/-! Layouts of dates and times: text with percent signs before the letters of fields. -/
namespace Tabulate.Calendar

inductive NumberItem
  | field (name : Field)
  | hour
  | halfHour
  | weekdayFromSunday
  | weekdayFromMonday
deriving DecidableEq

/-- One part of a layout. A number has a greatest count of digits, or none. -/
inductive Item
  | literal (text : List Char)
  | space
  | number (item : NumberItem) (width : Option Nat) (mayHaveSign : Bool)
  | monthName (mayBeLong : Bool)
  | weekdayName (mayBeLong : Bool)
  | half
  | fraction (width : Option Nat)
  | bareFraction (width : Nat)
  | zoneName
  | offset (mayOmitMinutes : Bool)
  | internet

abbrev Layout := List Item

namespace Layout

private def num (field : Field) (width : Nat) : Item := .number (.field field) (some width) false
private def year : Item := .number (.field .year) (some 4) true
private def hour : Item := .number .hour (some 2) false
private def halfHour : Item := .number .halfHour (some 2) false
private def dash : Item := .literal ['-']
private def colon : Item := .literal [':']
private def slash : Item := .literal ['/']
private def clock : Layout := [hour, colon, num .minute 2, colon, num .second 2]
private def shortDate : Layout := [num .month 2, slash, num .day 2, slash, num .yearOfCentury 2]

private def ofLetter? : Char → Option Layout
  | 'A' => some [.weekdayName true]
  | 'B' => some [.monthName true]
  | 'C' => some [num .century 2]
  | 'D' | 'x' => some shortDate
  | 'F' => some [year, dash, num .month 2, dash, num .day 2]
  | 'G' => some [.number (.field .weekYear) (some 4) true]
  | 'H' | 'k' => some [hour]
  | 'I' | 'l' => some [halfHour]
  | 'M' => some [num .minute 2]
  | 'P' | 'p' => some [.half]
  | 'R' => some [hour, colon, num .minute 2]
  | 'S' => some [num .second 2]
  | 'T' | 'X' => some clock
  | 'U' => some [num .weekFromSunday 2]
  | 'V' => some [num .week 2]
  | 'W' => some [num .weekFromMonday 2]
  | 'Y' => some [year]
  | 'Z' => some [.zoneName]
  | 'a' => some [.weekdayName false]
  | 'b' | 'h' => some [.monthName false]
  | 'c' => some ([.weekdayName false, .space, .monthName false, .space, num .day 2, .space]
      ++ clock ++ [.space, year])
  | 'd' | 'e' => some [num .day 2]
  | 'f' => some [num .nano 9]
  | 'g' => some [num .weekYearOfCentury 2]
  | 'j' => some [num .ordinal 3]
  | 'm' => some [num .month 2]
  | 'n' | 't' => some [.space]
  | 'q' => some [num .quarter 1]
  | 'r' => some [halfHour, colon, num .minute 2, colon, num .second 2, .space, .half]
  | 's' => some [.number (.field .epoch) none false]
  | 'u' => some [.number .weekdayFromMonday (some 1) false]
  | 'v' => some [num .day 2, dash, .monthName false, dash, year]
  | 'w' => some [.number .weekdayFromSunday (some 1) false]
  | 'y' => some [num .yearOfCentury 2]
  | 'z' => some [.offset false]
  | '+' => some [.internet]
  | '%' => some [.literal ['%']]
  | _ => none

private def isNumber : Layout → Bool
  | [.number ..] => true
  | _ => false

private def ofMark? : List Char → Option (Layout × List Char)
  | '-' :: c :: rest | '0' :: c :: rest | '_' :: c :: rest =>
    ((ofLetter? c).filter isNumber).map (·, rest)
  | '#' :: 'z' :: rest => some ([.offset true], rest)
  | ':' :: ':' :: ':' :: 'z' :: rest | ':' :: ':' :: 'z' :: rest | ':' :: 'z' :: rest =>
    some ([.offset false], rest)
  | '.' :: 'f' :: rest => some ([.fraction none], rest)
  | '.' :: '3' :: 'f' :: rest => some ([.fraction (some 3)], rest)
  | '.' :: '6' :: 'f' :: rest => some ([.fraction (some 6)], rest)
  | '.' :: '9' :: 'f' :: rest => some ([.fraction (some 9)], rest)
  | '3' :: 'f' :: rest => some ([.bareFraction 3], rest)
  | '6' :: 'f' :: rest => some ([.bareFraction 6], rest)
  | '9' :: 'f' :: rest => some ([.bareFraction 9], rest)
  | c :: rest => (ofLetter? c).map (·, rest)
  | [] => none

private def ofCharsWithin : Nat → List Char → Option Layout
  | 0, _ | _, [] => some []
  | fuel + 1, '%' :: rest => do
    let (items, rest) ← ofMark? rest
    return items ++ (← ofCharsWithin fuel rest)
  | fuel + 1, c :: rest => do
    if Unicode.isBlank c then
      return .space :: (← ofCharsWithin fuel (rest.dropWhile Unicode.isBlank))
    else
      let isPlain (x : Char) : Bool := !Unicode.isBlank x && x != '%'
      return .literal (c :: rest.takeWhile isPlain)
        :: (← ofCharsWithin fuel (rest.dropWhile isPlain))

/-- Reads a layout; absent if a percent sign starts no field. -/
def ofText? (text : List Char) : Option Layout := ofCharsWithin (text.length + 1) text

end Layout
end Tabulate.Calendar
