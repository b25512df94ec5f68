import Tabulate.Number.Word
import Tabulate.Calendar.Instant

/-! The fields that a textual date and time states, and the date or the instant they fix. -/
namespace Tabulate.Calendar

/-- A stated part of a date or a time. Weekdays count from Monday at zero. -/
inductive Field
  | year | century | yearOfCentury
  | weekYear | weekCentury | weekYearOfCentury
  | quarter | month | day | ordinal
  | weekFromSunday | weekFromMonday | week | weekday
  | half | hourOfHalf | minute | second | nano
  | epoch | offset
deriving DecidableEq

def Field.bounds : Field → Int × Int
  | .year | .weekYear | .offset => (Word.least 32, Word.greatest 32)
  | .century | .weekCentury => (0, Word.greatest 32)
  | .yearOfCentury | .weekYearOfCentury => (0, 99)
  | .quarter => (1, 4)
  | .month => (1, 12)
  | .day => (1, 31)
  | .ordinal => (1, 366)
  | .weekFromSunday | .weekFromMonday => (0, 53)
  | .week => (1, 53)
  | .weekday => (0, 6)
  | .half => (0, 1)
  | .hourOfHalf => (0, 11)
  | .minute => (0, 59)
  | .second => (0, 60)
  | .nano => (0, 999999999)
  | .epoch => (Word.least 64, Word.greatest 64)

/-- Stated values, at most one of a field. -/
abbrev Stated := List (Field × Int)

inductive Unresolved
  | insufficient
  | impossible
deriving DecidableEq

namespace Stated

def get? (s : Stated) (field : Field) : Option Int := s.lookup field

def state? (s : Stated) (field : Field) (value : Int) : Option Stated :=
  if value < field.bounds.1 || field.bounds.2 < value then none
  else match s.get? field with
    | some old => if old = value then some s else none
    | none => some ((field, value) :: s)

def stateHour? (s : Stated) (hour : Int) : Option Stated := do
  if hour < 0 || 23 < hour then none
  else (← s.state? .half (hour / 12)).state? .hourOfHalf (hour % 12)

def agrees (s : Stated) (field : Field) (value : Int) : Bool :=
  match s.get? field with
  | some stated => stated == value
  | none => true

/-- A year that is stated in full, by century and year of the century, or by the latter
alone, which is then taken from 1970 to 2069. -/
def year? (s : Stated) (full hundreds rest : Field) : Except Unresolved (Option Int) :=
  match s.get? full, s.get? hundreds, s.get? rest with
  | year, none, none => .ok year
  | some year, q, r =>
    if year < 0 then .error .impossible
    else if q.getD (year / 100) = year / 100 ∧ r.getD (year % 100) = year % 100 then .ok (some year)
    else .error .impossible
  | none, some q, some r =>
    if q * 100 + r ≤ Word.greatest 32 then .ok (some (q * 100 + r)) else .error .impossible
  | none, none, some r => .ok (some (r + if r < 70 then 2000 else 1900))
  | none, some _, none => .error .insufficient

def agreesYear (s : Stated) (full hundreds rest : Field) (year : Int) : Bool :=
  s.agrees full year
    && (if year < 0 then (s.get? hundreds).isNone && (s.get? rest).isNone
      else s.agrees hundreds (year / 100) && s.agrees rest (year % 100))

def agreesDay (s : Stated) (d : Date) : Bool :=
  s.agreesYear .year .century .yearOfCentury d.year && s.agrees .month d.month && s.agrees .day d.day

def agreesWeek (s : Stated) (d : Date) : Bool :=
  let (year, week) := d.thursdayWeek
  s.agreesYear .weekYear .weekCentury .weekYearOfCentury year && s.agrees .week week
    && s.agrees .weekday d.weekday

def agreesOrdinal (s : Stated) (d : Date) : Bool :=
  s.agrees .ordinal d.ordinal && s.agrees .weekFromSunday (d.weekFrom 6)
    && s.agrees .weekFromMonday (d.weekFrom 0)

def date (s : Stated) : Except Unresolved Date := do
  let year ← s.year? .year .century .yearOfCentury
  let weekYear ← s.year? .weekYear .weekCentury .weekYearOfCentury
  let found : Option Date ←
    match year, s.get? .month, s.get? .day with
    | some year, some month, some day => pure (Date.of? year month.toNat day.toNat)
    | _, _, _ =>
      match year, s.get? .ordinal with
      | some year, some ordinal => pure (Date.ofOrdinal? year ordinal)
      | _, _ =>
        match year, s.get? .weekFromSunday, s.get? .weekday with
        | some year, some week, some weekday => pure (Date.ofWeek? 6 year week weekday)
        | _, _, _ =>
          match year, s.get? .weekFromMonday, s.get? .weekday with
          | some year, some week, some weekday => pure (Date.ofWeek? 0 year week weekday)
          | _, _, _ =>
            match weekYear, s.get? .week, s.get? .weekday with
            | some year, some week, some weekday => pure (Date.ofThursdayWeek? year week weekday)
            | _, _, _ => throw .insufficient
  match found with
  | none => throw .impossible
  | some d =>
    if s.agreesDay d && s.agreesWeek d && s.agreesOrdinal d && s.agrees .quarter d.quarter then
      return d
    else throw .impossible

/-- The second of the day and the fraction; the sixtieth second is a leap second. -/
def time (s : Stated) : Except Unresolved (Int × Nat) :=
  match s.get? .half, s.get? .hourOfHalf, s.get? .minute with
  | some half, some hour, some minute =>
    let start := (half * 12 + hour) * 3600 + minute * 60
    match s.get? .second, s.get? .nano with
    | none, some _ => .error .insufficient
    | none, none => .ok (start, 0)
    | some second, nano =>
      let nano := (nano.getD 0).toNat
      if second = 60 then .ok (start + 59, 1000000000 + nano) else .ok (start + second, nano)
  | _, _, _ => .error .insufficient

/-- The local date and time that the stated values fix, as if it were universal time. -/
def localInstant? (s : Stated) (offset : Int) : Option Instant :=
  match s.date, s.time with
  | .ok date, .ok (second, nanos) =>
    let t : Instant := ⟨date.dayNumber * Instant.secondsPerDay + second, nanos⟩
    match s.get? .epoch with
    | none => some t
    | some epoch =>
      let expected := t.seconds - offset
      if epoch = expected ∨ (nanos ≥ 1000000000 ∧ epoch = expected + 1) then some t else none
  | date, time =>
    match s.get? .epoch, isImpossible date || isImpossible time with
    | some epoch, false => fromEpoch (epoch + offset)
    | _, _ => none
where
  isImpossible {α : Type} : Except Unresolved α → Bool
    | .error .impossible => true
    | _ => false
  fromEpoch (seconds : Int) : Option Instant := do
    let t ← Instant.of? seconds 0
    let leap := s.get? .second == some 60
    let t ←
      if !leap then some t
      else if t.seconds % 60 = 59 then some t
      else if t.seconds % 60 = 0 then Instant.of? (t.seconds - 1) 0
      else none
    let second := t.seconds % Instant.secondsPerDay
    let s ← if leap then some s else s.state? .second (second % 60)
    let s ← s.state? .year t.date.year
    let s ← s.state? .ordinal t.date.ordinal
    let s ← s.stateHour? (second / 3600)
    let s ← s.state? .minute (second / 60 % 60)
    match s.date, s.time with
    | .ok date, .ok (second, nanos) =>
      some ⟨date.dayNumber * Instant.secondsPerDay + second, nanos⟩
    | _, _ => none

def instant? (s : Stated) : Option Instant := do
  let offset ←
    match s.get? .offset, s.get? .epoch with
    | some offset, _ => some offset
    | none, some _ => some 0
    | none, none => none
  let t ← s.localInstant? offset
  if Instant.secondsPerDay ≤ offset.natAbs then none else Instant.of? (t.seconds - offset) t.nanos

/-- The instant that the stated values fix: with an offset, else in universal time, else
as the midnight of a date. -/
def resolve? (s : Stated) : Option Instant :=
  (s.instant?.or (s.localInstant? 0)).or (s.date.toOption.map Instant.ofDate)

end Stated
end Tabulate.Calendar
