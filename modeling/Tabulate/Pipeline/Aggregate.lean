import Tabulate.Groups
import Tabulate.Pipeline.Expr

/-! Grouping rows and folding each group into one record, in a single pass over the rows. -/
namespace Tabulate.Pipeline

inductive AggregateFunction
  | count | sum | mean | min | max | distinctCount | first | last
deriving DecidableEq

namespace AggregateFunction

def ofName? (text : String) : Option AggregateFunction :=
  match Unicode.lower text with
  | "count" => some count
  | "sum" => some sum
  | "mean" | "avg" => some mean
  | "min" => some min
  | "max" => some max
  | "dcount" => some distinctCount
  | "first" => some first
  | "last" => some last
  | _ => none

def name : AggregateFunction → String
  | count => "count"
  | sum => "sum"
  | mean => "mean"
  | min => "min"
  | max => "max"
  | distinctCount => "dcount"
  | first => "first"
  | last => "last"

end AggregateFunction

/-- A folded column; only a count may lack an argument. -/
structure Aggregate where
  name : String
  function : AggregateFunction
  argument : Option Expr

/-- The state of one aggregate within one group. -/
inductive Accumulator
  | count (n : Nat)
  | sum (total : Number)
  | mean (total : Number) (n : Nat)
  | min (least : Option Number)
  | max (greatest : Option Number)
  | distinct (keys : List String)
  | first (value : Option Value)
  | last (value : Option Value)

namespace Accumulator

def start : AggregateFunction → Accumulator
  | .count => count 0
  | .sum => sum 0
  | .mean => mean 0 0
  | .min => min none
  | .max => max none
  | .distinctCount => distinct []
  | .first => first none
  | .last => last none

def take (value : Value) : Accumulator → Accumulator
  | count n => count (n + 1)
  | sum total => sum ((value.toNumber?.map total.add).getD total)
  | mean total n =>
    match value.toNumber? with
    | some x => mean (total.add x) (n + 1)
    | none => mean total n
  | min least =>
    match value.toNumber? with
    | some x => min (some ((least.map (·.min x)).getD x))
    | none => min least
  | max greatest =>
    match value.toNumber? with
    | some x => max (some ((greatest.map (·.max x)).getD x))
    | none => max greatest
  | distinct keys => distinct (if keys.contains value.groupKey then keys else value.groupKey :: keys)
  | first value? => first (value?.or (some value))
  | last _ => last (some value)

/-- Takes in the argument of one row. Null is passed over; a missing argument is counted. -/
def update (acc : Accumulator) : Option Value → Accumulator
  | none =>
    match acc with
    | count n => count (n + 1)
    | acc => acc
  | some .null => acc
  | some value => take value acc

def finish : Accumulator → Value
  | count n => Value.ofNat n
  | sum total => .number total
  | mean total n => if n = 0 then .null else .number (total.div (Number.ofNat n))
  | min x | max x => (x.map Value.number).getD .null
  | distinct keys => Value.ofNat keys.length
  | first value? | last value? => value?.getD .null

end Accumulator

/-- The rows with one key: the values grouped by, and the state of each aggregate. -/
structure Group where
  values : List Value
  states : List Accumulator

namespace Group

def empty (aggregates : List Aggregate) (values : List Value) : Group :=
  ⟨values, aggregates.map fun a => Accumulator.start a.function⟩

def takeRow (aggregates : List Aggregate) (g : Group) (row : Value) : Group :=
  { g with states := (aggregates.zip g.states).map fun (a, state) =>
      state.update (a.argument.map (·.eval row)) }

def valuesOf (fields : List String) (row : Value) : List Value := fields.map row.resolve

def keyOf (fields : List String) (row : Value) : String := Value.groupKey (.array (valuesOf fields row))

def ofRows (aggregates : List Aggregate) (fields : List String) (rows : List Value) : List Group :=
  (Groups.fold (keyOf fields) (fun row => empty aggregates (valuesOf fields row))
    (takeRow aggregates) rows).map (·.2)

/-- The record of a group: the values grouped by, then the aggregates. -/
def record (aggregates : List Aggregate) (fields : List String) (g : Group) : Value :=
  .object <| Fields.ofList <|
    fields.zip g.values ++ (aggregates.zip g.states).map fun (a, state) => (a.name, state.finish)

end Group

/-- One record a group; without fields, no rows still make one record. -/
def summarize (aggregates : List Aggregate) (fields : List String) (rows : List Value) : List Value :=
  let groups := Group.ofRows aggregates fields rows
  let groups := if groups.isEmpty && fields.isEmpty then [Group.empty aggregates []] else groups
  groups.map (Group.record aggregates fields)

end Tabulate.Pipeline
