import Tabulate.Frame.Cell

/-! Declarations of output columns, and what makes a list of them invalid. -/
namespace Tabulate

/-- A column: where its values come from, what it is called and what they become. -/
structure Column where
  selector : String
  label : String
  format : ColumnFormat
  /-- The layout of timestamps in texts. -/
  pattern : Option String
deriving DecidableEq

namespace Column

private def isBlank (text : String) : Bool := text.toList.all Unicode.isBlank

private def trimmed (text : List Char) : String := String.ofList (Unicode.trim text)

def name (c : Column) : String := if isBlank c.label then c.selector else c.label

private def splitColon (text : List Char) : List Char × Option (List Char) :=
  (text.takeWhile (· ≠ ':'), (text.dropWhile (· ≠ ':')).tail?)

/-- The column of a text such as `selector:label:format`, of which the ends may lack. -/
def ofText? (text : String) : Option Column :=
  let (selector, rest) := splitColon text.toList
  let (label, rest) := splitColon (rest.getD [])
  match rest with
  | none => some ⟨trimmed selector, trimmed label, .string, none⟩
  | some format =>
    (ColumnFormat.ofName? (String.ofList format)).map (⟨trimmed selector, trimmed label, ·, none⟩)

def withPattern (pattern : Option String) (c : Column) : Column :=
  if c.format.isTimestamp then { c with pattern := c.pattern.or pattern } else c

end Column

inductive ColumnFault
  | unaddressed (index : Nat)
  | timestamps (count : Nat)
  | noNumber
deriving DecidableEq

def ColumnFault.message : ColumnFault → String
  | unaddressed index => s!"column {index} has neither a selector nor an alias"
  | timestamps count => s!"a time series needs exactly one timestamp column, found {count}"
  | noNumber => "a time series needs at least one number column"

def countOfType (type : ColumnType) (columns : List Column) : Nat :=
  columns.countP (·.format.columnType == type)

/-- Checks columns. Those of a series need exactly one timestamp and at least one number,
unless there are none, which stands for those that are derived. -/
def checkColumns (isSeries : Bool) (columns : List Column) : Except ColumnFault Unit :=
  match columns.findIdx? fun c => Column.isBlank c.selector && Column.isBlank c.label with
  | some index => .error (.unaddressed index)
  | none =>
    if !isSeries || columns.isEmpty then .ok ()
    else if countOfType .timestamp columns ≠ 1 then
      .error (.timestamps (countOfType .timestamp columns))
    else if countOfType .number columns = 0 then .error .noNumber
    else .ok ()

end Tabulate
