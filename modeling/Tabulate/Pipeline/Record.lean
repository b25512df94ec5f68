import Tabulate.Pipeline.Expr

/-! Changes of whole records: choosing, dropping and adding fields, and expanding arrays. -/
namespace Tabulate.Pipeline

inductive RecordFault
  | notRecord (verb : String) (found : String)
  | noField
deriving DecidableEq

def RecordFault.message : RecordFault → String
  | notRecord verb found => s!"{verb} expects records, found {found}"
  | noField => "mv-expand needs a field"

/-- Keeps the assigned columns; a sole `kv()` without a name turns the record into its entries. -/
def project (assignments : List Assignment) (record : Value) : Except RecordFault Value :=
  match record, assignments with
  | .object _, [⟨"kv", .call .kv []⟩] => .ok (Function.entries record)
  | .object _, assignments =>
    .ok (.object (Fields.ofList (assignments.map fun a => (a.name, a.expr.eval record))))
  | other, _ => .error (.notRecord "project" other.typeName)

def projectAway (names : List String) : Value → Value
  | .object fields => .object (names.foldl Fields.erase fields)
  | other => other

def extend (assignments : List Assignment) : Value → Except RecordFault Value
  | .object fields =>
    .ok (.object (assignments.foldl assign fields))
  | other => .error (.notRecord "extend" other.typeName)
where
  assign (fields : Fields) (a : Assignment) : Fields :=
    fields.insert a.name (a.expr.eval (.object fields))

def changeField (key : String) (f : Value → Value) : Fields → Fields
  | [] => []
  | (name, value) :: rest =>
    if name = key then (name, f value) :: rest else (name, value) :: changeField key f rest

/-- Writes a value at the end of a path whose earlier steps are present and of the kind of
the value they are taken from. -/
def writeAt : Path → Value → Value → Value
  | [], _, target => target
  | [.key name], value, .object fields => .object (Fields.insert fields name value)
  | [.index position], value, .array items => .array (items.modify position fun _ => value)
  | .key name :: rest, value, .object fields => .object (changeField name (writeAt rest value) fields)
  | .index position :: rest, value, .array items =>
    .array (items.modify position (writeAt rest value))
  | _, _, target => target

/-- The records of one row: one for each item of the array at a path, or the row itself. -/
def expandRow (path : Path) (row : Value) : Except RecordFault (List Value) :=
  match row with
  | .object _ =>
    match row.at? path with
    | some (.array items) => .ok (items.map fun item => writeAt path item row)
    | _ => .ok [row]
  | other => .error (.notRecord "mv-expand" other.typeName)

def mvExpand (field : String) (rows : List Value) : Except RecordFault (List Value) := do
  let path := Path.ofText field
  if path.isEmpty then throw .noField
  return (← rows.mapM (expandRow path)).flatten

end Tabulate.Pipeline
