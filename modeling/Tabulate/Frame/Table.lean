import Tabulate.Frame.Column
import Tabulate.Journal
import Tabulate.Value.Path

/-! Tables: typed columns, and rows with one cell for each of them. -/
namespace Tabulate

structure Table where
  name : String
  columns : List (String × ColumnType)
  rows : List (List Cell)

namespace Table

def columnIndex? (t : Table) (name : String) : Option Nat := t.columns.findIdx? (·.1 == name)

def cell? (t : Table) (row : Nat) (name : String) : Option Cell := do
  (← t.rows[row]?)[← t.columnIndex? name]?

def columnCells (t : Table) (name : String) : List Cell :=
  match t.columnIndex? name with
  | some index => t.rows.filterMap (·[index]?)
  | none => []

def records (t : Table) : Value :=
  .array <| t.rows.map fun row =>
    .object (Fields.ofList ((t.columns.zip row).map fun ((name, _), cell) => (name, cell.toValue)))

def toTree (t : Table) : Json.Tree :=
  .object [
    ("name", .string t.name),
    ("columns", .array (t.columns.map fun (name, type) =>
      .object [("name", .string name), ("type", .string type.name)])),
    ("rows", .array (t.rows.map fun row => .array (row.map Cell.toTree)))]

end Table

/-- A selector for a key as it stands, even if it holds characters with a meaning in paths. -/
def keySelector (key : String) : String :=
  let text := key.toList
  if text.any (fun c => c = '.' || c = '[' || c = ']') || text.head? = some '$' then "['" ++ key ++ "']"
  else key

def formatOf : Value → ColumnFormat
  | .number _ => .number
  | _ => .string

def derivedColumns (rows : List Value) : List Column :=
  match rows with
  | [] => []
  | .object fields :: _ => fields.map fun (key, v) => ⟨keySelector key, key, formatOf v, none⟩
  | .array items :: _ =>
    items.zipIdx.map fun (v, index) => ⟨toString index, toString index, formatOf v, none⟩
  | v :: _ => [⟨"", "value", formatOf v, none⟩]

namespace Column

def select (c : Column) (row : Value) : Value := row.resolve c.selector

def cellOf (c : Column) (row : Value) : Cell := (c.select row).toCell c.format c.pattern

/-- Whether a value is there and cannot be converted. -/
private def fails (c : Column) (row : Value) : Bool :=
  let isBlank := match c.select row with
    | .null => true
    | .string text => text.toList.all Unicode.isBlank
    | _ => false
  (c.cellOf row).isNull && !isBlank

def warning? (c : Column) (rows : List Value) : Option String :=
  let count := rows.countP c.fails
  if count = 0 then none
  else some s!"column '{c.name}': {count} value(s) could not be converted to {c.format.title}"

end Column

namespace Table

def assemble (name : String) (columns : List Column) (rows : List Value) : Table :=
  ⟨name, columns.map fun c => (c.name, c.format.columnType),
    rows.map fun row => columns.map (·.cellOf row)⟩

/-- The table of rows. Without columns they are derived; each column whose values cannot all
be converted makes one warning. -/
def ofRows {ε : Type} (name : String) (columns : List Column) (rows : List Value) :
    Reporting ε Table := do
  let columns := if columns.isEmpty then derivedColumns rows else columns
  for text in columns.filterMap (·.warning? rows) do
    Reporting.warn text
  Reporting.debug .table
    s!"assembled table with {columns.length} columns and {rows.length} rows"
  return assemble name columns rows

end Table
end Tabulate
