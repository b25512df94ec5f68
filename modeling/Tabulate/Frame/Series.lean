import Tabulate.Frame.Table
import Tabulate.Groups

/-! Time series: the numbers of a table over time, apart for each tuple of its texts. -/
namespace Tabulate

structure Point where
  time : Instant
  value : Option Number

structure Series where
  /-- The cells that all points of a series have in common. -/
  key : List Cell
  field : String
  points : List Point

structure SeriesSet where
  name : String
  timeField : String
  dimensions : List String
  series : List Series

inductive SeriesFault
  | noTimestamp
  | timestamps (count : Nat)
  | noNumber
deriving DecidableEq

namespace SeriesFault

def reason : SeriesFault → String
  | noTimestamp => "no timestamp column declared"
  | timestamps count => s!"expected one timestamp column, found {count}"
  | noNumber => "no number column declared"

def message (f : SeriesFault) : String := s!"invalid time series: {f.reason}"

end SeriesFault

namespace Cell

def asTime? : Cell → Option Instant
  | timestamp t => some t
  | _ => none

def asNumber? : Cell → Option Number
  | number n => some n
  | _ => none

def asText? : Cell → Option String
  | string s => some s
  | _ => none

end Cell

namespace Table

def columnsOfType (t : Table) (type : ColumnType) : List (Nat × String) :=
  (t.columns.zipIdx.filter (·.1.2 == type)).map fun ((name, _), index) => (index, name)

end Table

abbrev Timed := Instant × List Cell

def timedRows (index : Nat) (rows : List (List Cell)) : List Timed :=
  rows.filterMap fun row => ((row[index]?).bind Cell.asTime?).map (·, row)

abbrev Keyed := List Cell × List Timed

/-- The text by which keys are told apart. -/
def keyText (key : List Cell) : String := (Json.Tree.array (key.map Cell.toTree)).text

def cellsAt (indices : List Nat) (row : List Cell) : List Cell := indices.map fun i => (row[i]?).getD .null

/-- Rows by the cells that they have at some indices, in order of first appearance. -/
def groupTimed (indices : List Nat) (rows : List Timed) : List Keyed :=
  (Groups.fold (fun row => keyText (cellsAt indices row.2)) (fun row => (cellsAt indices row.2, []))
    (fun (key, members) row => (key, members ++ [row])) rows).map (·.2)

def notAfter (a b : Instant) : Bool :=
  a.seconds < b.seconds || (a.seconds == b.seconds && a.nanos ≤ b.nanos)

/-- The series of the rows with one key: one for each column of numbers, in order of time. -/
def seriesOf (numbers : List (Nat × String)) (group : Keyed) : List Series :=
  let rows := group.2.mergeSort fun a b => notAfter a.1 b.1
  numbers.map fun (index, field) =>
    ⟨group.1, field, rows.map fun (time, row) => ⟨time, (row[index]?).bind Cell.asNumber?⟩⟩

namespace SeriesSet

/-- The series of a table; rows without a time are left out with a warning. -/
def ofTable (t : Table) : Reporting SeriesFault SeriesSet := do
  match t.columnsOfType .timestamp with
  | [] => throw .noTimestamp
  | [(timeIndex, timeField)] =>
    let numbers := t.columnsOfType .number
    if numbers.isEmpty then throw .noNumber
    let dimensions := t.columnsOfType .string
    let timed := timedRows timeIndex t.rows
    let dropped := t.rows.length - timed.length
    if dropped ≠ 0 then Reporting.warn s!"dropped {dropped} row(s) without a timestamp"
    let series := (groupTimed (dimensions.map (·.1)) timed).flatMap (seriesOf numbers)
    Reporting.debug .series s!"pivoted {t.rows.length} rows into {series.length} series"
    return ⟨t.name, timeField, dimensions.map (·.2), series⟩
  | several => throw (.timestamps several.length)

def ofRows (name : String) (columns : List Column) (rows : List Value) :
    Reporting SeriesFault SeriesSet := do
  ofTable (← Table.ofRows name columns rows)

private def pointTree (p : Point) : Json.Tree :=
  .object [("timestamp", .integer p.time.millis), ("value", (p.value.map .float).getD .null)]

def toTree (s : SeriesSet) : Json.Tree :=
  .object [
    ("name", .string s.name),
    ("time_field", .string s.timeField),
    ("dimensions", .array (s.dimensions.map .string)),
    ("series", .array (s.series.map fun one =>
      .object [
        ("key", .array (one.key.map Cell.toTree)),
        ("field", .string one.field),
        ("points", .array (one.points.map pointTree))]))]

end SeriesSet
end Tabulate
