import Tabulate.Value.Order
import Tabulate.Value.Path

/-! Stable sorting of records by keys. -/
namespace Tabulate.Pipeline

inductive Direction
  | ascending
  | descending
deriving DecidableEq

structure SortKey where
  path : Path
  direction : Direction
deriving DecidableEq

namespace SortKey

def ofField (field : String) (direction : Direction) : SortKey := ⟨Path.ofText field, direction⟩

/-- The order of two records by one key; null comes last in both directions. -/
def compareBy (key : SortKey) (a b : Value) : Ordering :=
  let x := (a.at? key.path).getD .null
  let y := (b.at? key.path).getD .null
  match x.isNull, y.isNull with
  | true, true => .eq
  | true, false => .gt
  | false, true => .lt
  | false, false =>
    match key.direction with
    | .ascending => x.sortOrder y
    | .descending => y.sortOrder x

end SortKey

def compareRecords (keys : List SortKey) (a b : Value) : Ordering :=
  keys.foldr (fun key rest => (key.compareBy a b).then rest) .eq

/-- Sorts rows and keeps the order of rows that no key tells apart. -/
def orderBy (keys : List SortKey) (rows : List Value) : List Value :=
  rows.mergeSort fun a b => compareRecords keys a b != .gt

end Tabulate.Pipeline
