import Tabulate.Calendar.Layout
import Tabulate.Number.Read

/-! Reading dates and times: by a layout, in the internet format and in the mail format. -/
namespace Tabulate.Calendar

abbrev Progress := List Char × Stated

private def trimStart (text : List Char) : List Char := text.dropWhile Unicode.isBlank

def expect? (expected : Char) : List Char → Option (List Char)
  | c :: rest => if c = expected then some rest else none
  | [] => none

private def dropText? : List Char → List Char → Option (List Char)
  | [], text => some text
  | c :: more, text => do dropText? more (← expect? c text)

def readDigits? (low : Nat) (high : Option Nat) (text : List Char) : Option (Nat × List Char) :=
  let run := (takeDigits text).1
  let digits := match high with
    | some high => run.take high
    | none => run
  let value := digitsValue digits
  if digits.length < low || twoTo 63 ≤ value then none else some (value, text.drop digits.length)

/-- A fraction of a second, in nanoseconds; digits after the ninth are passed over. -/
def readFraction? (text : List Char) : Option (Nat × List Char) := do
  let (value, rest) ← readDigits? 1 (some 9) text
  return (value * tenTo (9 - (text.length - rest.length)), (takeDigits rest).2)

private def monthStems : List String :=
  ["jan", "feb", "mar", "apr", "may", "jun", "jul", "aug", "sep", "oct", "nov", "dec"]

private def monthEndings : List String :=
  ["uary", "ruary", "ch", "il", "", "e", "y", "ust", "tember", "ober", "ember", "ember"]

private def weekdayStems : List String := ["mon", "tue", "wed", "thu", "fri", "sat", "sun"]

private def weekdayEndings : List String := ["day", "sday", "nesday", "rsday", "day", "urday", "day"]

private def readName? (stems endings : List String) (mayBeLong : Bool) (text : List Char) :
    Option (Nat × List Char) := do
  let stem := String.ofList ((text.take 3).map Char.toLower)
  let index ← stems.findIdx? (· == stem)
  let rest := text.drop 3
  let ending := (endings.getD index "").toList
  if mayBeLong && (rest.take ending.length).map Char.toLower == ending then
    return (index, rest.drop ending.length)
  else return (index, rest)

/-- An offset from universal time in seconds: a sign, hours, a separator and minutes. -/
def readOffset? (separator : List Char → Option (List Char))
    (mayBeZulu mayOmitMinutes mayBeMinus : Bool) (text : List Char) : Option (Int × List Char) := do
  if mayBeZulu && (text.head? == some 'Z' || text.head? == some 'z') then return (0, text.drop 1)
  let (negative, rest) ←
    match text with
    | '+' :: rest => some (false, rest)
    | '-' :: rest => some (true, rest)
    | c :: rest => if c.toNat = 0x2212 && mayBeMinus then some (true, rest) else none
    | [] => none
  let (hours, rest) ← readDigits? 2 (some 2) rest
  let rest ← separator rest
  let (minutes, rest) ←
    if rest.isEmpty && mayOmitMinutes then some (0, [])
    else readDigits? 2 (some 2) rest
  if minutes > 59 then none
  let seconds : Int := hours * 3600 + minutes * 60
  return (if negative then -seconds else seconds, rest)

private def colonOrSpace (text : List Char) : Option (List Char) :=
  some (text.dropWhile fun c => c = ':' || Unicode.isBlank c)

private def stateNumber? (s : Stated) (item : NumberItem) (value : Int) : Option Stated :=
  match item with
  | .field name => s.state? name value
  | .hour => s.stateHour? value
  | .halfHour =>
    if value < 1 || 12 < value then none else s.state? .hourOfHalf (value % 12)
  | .weekdayFromSunday => if 6 < value then none else s.state? .weekday ((value + 6) % 7)
  | .weekdayFromMonday => if value < 1 || 7 < value then none else s.state? .weekday (value - 1)

private def readNumber? (item : NumberItem) (width : Option Nat) (mayHaveSign : Bool)
    (text : List Char) (s : Stated) : Option Progress := do
  let text := trimStart text
  let (value, rest) ←
    match mayHaveSign, text with
    | true, '-' :: rest => (readDigits? 1 none rest).map fun (value, rest) => (-(value : Int), rest)
    | true, '+' :: rest => (readDigits? 1 none rest).map fun (value, rest) => ((value : Int), rest)
    | _, text => (readDigits? 1 width text).map fun (value, rest) => ((value : Int), rest)
  return (rest, ← stateNumber? s item value)

private def readItem? (item : Item) (text : List Char) (s : Stated) : Option Progress :=
  match item with
  | .literal literal => (dropText? literal text).map (·, s)
  | .space => some (trimStart text, s)
  | .number item width mayHaveSign => readNumber? item width mayHaveSign text s
  | .monthName mayBeLong => do
    let (index, rest) ← readName? monthStems monthEndings mayBeLong text
    return (rest, ← s.state? .month (index + 1))
  | .weekdayName mayBeLong => do
    let (index, rest) ← readName? weekdayStems weekdayEndings mayBeLong text
    return (rest, ← s.state? .weekday index)
  | .half =>
    match (text.take 2).map Char.toLower with
    | ['a', 'm'] => (s.state? .half 0).map (text.drop 2, ·)
    | ['p', 'm'] => (s.state? .half 1).map (text.drop 2, ·)
    | _ => none
  | .fraction width =>
    match text, width with
    | '.' :: rest, none => do
      let (nano, rest) ← readFraction? rest
      return (rest, ← s.state? .nano nano)
    | '.' :: rest, some width => bareFraction width rest
    | text, _ => some (text, s)
  | .bareFraction width => bareFraction width text
  | .zoneName => some (text.dropWhile (!Unicode.isBlank ·), s)
  | .offset mayOmitMinutes => do
    let (seconds, rest) ← readOffset? colonOrSpace mayOmitMinutes mayOmitMinutes true (trimStart text)
    return (rest, ← s.state? .offset seconds)
  | .internet => none
where
  bareFraction (width : Nat) (text : List Char) : Option Progress := do
    let (value, rest) ← readDigits? width (some width) text
    return (rest, ← s.state? .nano (value * tenTo (9 - width)))

private def readItems? : Layout → List Char → Stated → Option Progress
  | [], text, s => some (text, s)
  | .internet :: more, text, s => do
    let (rest, s) ← readRelaxed? text s
    readItems? more rest s
  | item :: more, text, s => do
    let (rest, s) ← readItem? item text s
    readItems? more rest s
where
  /-- The internet format with numbers of fewer digits and spaces between its parts. -/
  readRelaxed? (text : List Char) (s : Stated) : Option Progress := do
    let dash : Layout := [.space, .literal ['-']]
    let colon : Layout := [.space, .literal [':']]
    let num (field : Field) : Item := .number (.field field) (some 2) false
    let dated : Layout := .number (.field .year) (some 4) true :: dash ++ num .month :: dash ++ [num .day]
    let timed : Layout := .number .hour (some 2) false :: colon ++ num .minute :: colon
      ++ [num .second, .fraction none]
    let (rest, s) ← dated.foldlM (fun (text, s) item => readItem? item text s) (text, s)
    let rest ← match rest with
      | 'T' :: rest | 't' :: rest | ' ' :: rest => some rest
      | _ => none
    let (rest, s) ← timed.foldlM (fun (text, s) item => readItem? item text s) (rest, s)
    let rest := trimStart rest
    if (rest.take 3).map Char.toLower = "utc".toList then
      return (rest.drop 3, ← s.state? .offset 0)
    else
      let (seconds, rest) ← readOffset? colonOrSpace true false true rest
      return (rest, ← s.state? .offset seconds)

/-- What a text states by a layout that covers all of it. -/
def Layout.read? (layout : Layout) (text : List Char) : Option Stated := do
  let (rest, s) ← readItems? layout text []
  if rest.isEmpty then some s else none

def stateDigits? (field : Field) (width : Nat) (progress : Progress) : Option Progress := do
  let (value, rest) ← readDigits? width (some width) progress.1
  return (rest, ← progress.2.state? field value)

def passOver? (c : Char) (progress : Progress) : Option Progress := do
  return (← expect? c progress.1, progress.2)

/-- The internet format: full numbers, a `T` or a space between date and time, and an offset
below a day. -/
def readInternet? (text : List Char) : Option Instant := do
  let p ← stateDigits? .year 4 (text, [])
  let p ← passOver? '-' p
  let p ← stateDigits? .month 2 p
  let p ← passOver? '-' p
  let p ← stateDigits? .day 2 p
  let (rest, s) ← match p with
    | ('T' :: rest, s) | ('t' :: rest, s) | (' ' :: rest, s) => some (rest, s)
    | _ => none
  let (hour, rest) ← readDigits? 2 (some 2) rest
  let p ← passOver? ':' (rest, ← s.stateHour? hour)
  let p ← stateDigits? .minute 2 p
  let p ← passOver? ':' p
  let (rest, s) ← stateDigits? .second 2 p
  let (rest, s) ← match rest with
    | '.' :: rest => do
      let (nano, rest) ← readFraction? rest
      some (rest, ← s.state? .nano nano)
    | rest => some (rest, s)
  let (seconds, rest) ← readOffset? (expect? ':') true false true rest
  if Instant.secondsPerDay ≤ seconds.natAbs || !rest.isEmpty then none
  (← s.state? .offset seconds).instant?

private def space? (text : List Char) : Option (List Char) :=
  match text with
  | c :: rest => if Unicode.isBlank c then some (trimStart rest) else none
  | [] => none

/-- Hours from universal time of the zones that mail names; other single letters but `j`
stand for universal time. -/
private def zoneHours? (name : List Char) : Option Int :=
  match String.ofList (name.map Char.toLower) with
  | "gmt" | "ut" => some 0
  | "edt" => some (-4)
  | "est" | "cdt" => some (-5)
  | "cst" | "mdt" => some (-6)
  | "mst" | "pdt" => some (-7)
  | "pst" => some (-8)
  | "j" => none
  | _ => if name.length = 1 then some 0 else none

private def readMailOffset? (text : List Char) : Option (Int × List Char) :=
  let name := text.takeWhile Char.isAlpha
  if name.isEmpty then readOffset? some false false false text
  else (zoneHours? name).map fun hours => (hours * 3600, text.drop name.length)

/-- The text after a comment in nested parentheses; a backslash hides what follows it. -/
private def skipComment? : Nat → List Char → Option (List Char)
  | _, [] => none
  | 0, '(' :: rest => skipComment? 1 rest
  | 0, _ :: _ => none
  | 1, ')' :: rest => some rest
  | _ + 1, ['\\'] => none
  | depth + 1, '\\' :: _ :: rest => skipComment? (depth + 1) rest
  | depth + 1, '(' :: rest => skipComment? (depth + 2) rest
  | depth + 1, ')' :: rest => skipComment? depth rest
  | depth + 1, _ :: rest => skipComment? (depth + 1) rest

private def skipComments : Nat → List Char → List Char
  | 0, text => text
  | fuel + 1, text =>
    match skipComment? 0 (trimStart text) with
    | some rest => skipComments fuel rest
    | none => text

/-- A year of two or three digits belongs to the twentieth or the twenty-first century. -/
private def fullYear (digits : Nat) (year : Int) : Int :=
  if digits = 2 then if year < 50 then year + 2000 else year + 1900
  else if digits = 3 then year + 1900
  else year

/-- The mail format: a weekday if stated, a day, a month by name, a year, a time and a zone. -/
def readMail? (text : List Char) : Option Instant := do
  let text := trimStart text
  let (rest, s) ← match readName? weekdayStems weekdayEndings false text with
    | some (index, rest) => do
      let rest ← expect? ',' rest
      some (rest, ← Stated.state? [] .weekday index)
    | none => some (text, [])
  let (day, rest) ← readDigits? 1 (some 2) (trimStart rest)
  let s ← s.state? .day day
  let (month, rest) ← readName? monthStems monthEndings false (← space? rest)
  let s ← s.state? .month (month + 1)
  let start ← space? rest
  let (year, rest) ← readDigits? 2 none start
  let s ← s.state? .year (fullYear (start.length - rest.length) year)
  let (hour, rest) ← readDigits? 2 (some 2) (← space? rest)
  let s ← s.stateHour? hour
  let rest ← expect? ':' (trimStart rest)
  let (minute, rest) ← readDigits? 2 (some 2) (trimStart rest)
  let s ← s.state? .minute minute
  let (rest, s) ← match trimStart rest with
    | ':' :: rest => do
      let (second, rest) ← readDigits? 2 (some 2) rest
      some (rest, ← s.state? .second second)
    | _ => some (rest, s)
  let (seconds, rest) ← readMailOffset? (← space? rest)
  let s ← s.state? .offset seconds
  if (skipComments rest.length rest).isEmpty then s.instant? else none

end Tabulate.Calendar
