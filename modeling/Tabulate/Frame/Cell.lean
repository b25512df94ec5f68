import Tabulate.Calendar.Timestamp
import Tabulate.Json.Printer
import Tabulate.Number.Grouped

/-! Typed cells, and the coercion of values into them. -/
namespace Tabulate

inductive ColumnFormat
  | string
  | number
  | timestamp
  | epochMillis
  | epochSeconds
deriving DecidableEq

inductive ColumnType
  | string
  | number
  | timestamp
deriving DecidableEq

inductive Cell
  | null
  | string (text : String)
  | number (n : Number)
  | timestamp (t : Instant)
deriving DecidableEq

namespace ColumnType

def name : ColumnType → String
  | string => "string"
  | number => "number"
  | timestamp => "timestamp"

end ColumnType

namespace ColumnFormat

instance : Inhabited ColumnFormat := ⟨string⟩

def name : ColumnFormat → String
  | string => "string"
  | number => "number"
  | timestamp => "timestamp"
  | epochMillis => "timestamp_epoch"
  | epochSeconds => "timestamp_epoch_s"

def title : ColumnFormat → String
  | string => "String"
  | number => "Number"
  | timestamp => "Timestamp"
  | epochMillis => "TimestampEpochMillis"
  | epochSeconds => "TimestampEpochSeconds"

/-- The format of a name in a column declaration, in any case and with space around it. -/
def ofName? (text : String) : Option ColumnFormat :=
  match Unicode.lower (String.ofList (Unicode.trim text.toList)) with
  | "string" | "text" => some string
  | "number" | "numeric" => some number
  | "timestamp" | "time" => some timestamp
  | "timestamp_epoch" | "timestamp_epoch_millis" => some epochMillis
  | "timestamp_epoch_s" | "timestamp_epoch_seconds" => some epochSeconds
  | _ => none

def columnType : ColumnFormat → ColumnType
  | string => .string
  | number => .number
  | timestamp | epochMillis | epochSeconds => .timestamp

def isTimestamp (f : ColumnFormat) : Bool := f.columnType == .timestamp

end ColumnFormat

namespace Value

/-- The text form of a value; arrays and objects are written as indented JSON. -/
def toText? : Value → Option String
  | null => none
  | bool b => some (if b then "true" else "false")
  | number n => some n.text
  | string s => some s
  | array items => some (array items).prettyJson
  | object fields => some (object fields).prettyJson

def toNumber? : Value → Option Number
  | number n => some n
  | bool b => some (if b then 1 else 0)
  | string s => Number.ofText? s
  | null | array _ | object _ => none

/-- The instant that a value stands for. Numbers, and in the epoch formats numeric texts,
count from the epoch; other texts are read as timestamps. -/
def toInstant? (format : ColumnFormat) (pattern : Option String) : Value → Option Instant
  | number n =>
    if format = .epochSeconds then Timestamp.ofEpochSeconds? n else Timestamp.ofEpochMillis? n
  | string s =>
    match format, Number.ofText? s with
    | .epochMillis, some n => Timestamp.ofEpochMillis? n
    | .epochSeconds, some n => Timestamp.ofEpochSeconds? n
    | _, _ => Timestamp.read? s pattern
  | _ => none

/-- The cell of a value in a format; null if the value has no such form. -/
def toCell (format : ColumnFormat) (pattern : Option String) (v : Value) : Cell :=
  match format.columnType with
  | .string => (v.toText?.map Cell.string).getD .null
  | .number => (v.toNumber?.map Cell.number).getD .null
  | .timestamp => ((v.toInstant? format pattern).map Cell.timestamp).getD .null

end Value

namespace Cell

instance : Inhabited Cell := ⟨null⟩

def isNull : Cell → Bool
  | null => true
  | _ => false

/-- A cell as a value; an instant becomes its text. -/
def toValue : Cell → Value
  | null => .null
  | string s => .string s
  | number n => .number n
  | timestamp t => .string t.text

/-- A cell in JSON: numbers always show a fraction and instants are milliseconds. -/
def toTree : Cell → Json.Tree
  | null => .null
  | string s => .string s
  | number n => .float n
  | timestamp t => .integer t.millis

end Cell
end Tabulate
