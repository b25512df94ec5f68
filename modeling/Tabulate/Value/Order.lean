import Tabulate.Json.Printer
import Tabulate.Number.Grouped

/-! Comparison of values, as predicates see it and as sorting sees it. -/
namespace Tabulate.Value

/-- The order of two values of one kind, or of a number and a text that stands for one. -/
def compare? : Value → Value → Option Ordering
  | null, null => some .eq
  | number a, number b => a.compare? b
  | number a, string s => do a.compare? (← Number.ofText? s)
  | string s, number b => do (← Number.ofText? s).compare? b
  | string s, string t => some (compare s t)
  | bool a, bool b => some (compare a b)
  | _, _ => none

/-- Equality of predicates: by order where two values have one, else by structure. -/
def equals (a b : Value) : Bool :=
  match a.compare? b with
  | some order => order == .eq
  | none => a.same b

def kindRank : Value → Nat
  | number _ => 0
  | string _ => 1
  | bool _ => 2
  | array _ => 3
  | object _ => 4
  | null => 5

/-- The order of sorting: null comes last, texts that both stand for numbers compare as
numbers, and values without an order compare by kind and then by their JSON text. -/
def sortOrder : Value → Value → Ordering
  | null, null => .eq
  | null, _ => .gt
  | _, null => .lt
  | string s, string t =>
    match Number.ofText? s, Number.ofText? t with
    | some a, some b => (a.compare? b).getD .eq
    | _, _ => compare s t
  | a, b =>
    match a.compare? b with
    | some order => order
    | none => (compare a.kindRank b.kindRank).then (compare a.json b.json)

end Tabulate.Value
