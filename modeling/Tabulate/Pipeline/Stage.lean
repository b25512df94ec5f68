import Tabulate.Jsonata.Eval
import Tabulate.Payload.Reader
import Tabulate.Pipeline.Aggregate
import Tabulate.Pipeline.Predicate
import Tabulate.Pipeline.Record
import Tabulate.Pipeline.Sort

/-! The stages of a pipeline, each a step from one value to the next. -/
namespace Tabulate.Pipeline

inductive Stage
  | parseJson
  | parseCsv (options : Delimited.Options)
  | parseMarkup (language : Markup.Language)
  | parseYaml
  | scope (selector : String)
  | project (assignments : List Assignment)
  | projectAway (fields : List String)
  | extend (assignments : List Assignment)
  | summarize (aggregates : List Aggregate) (fields : List String)
  | mvExpand (field : String)
  | orderBy (keys : List SortKey)
  | limit (count : Nat)
  | filter (predicate : Predicate)
  | count
  | jsonata (expression : Jsonata.Expression)

inductive StageFault
  | payload (error : Payload.Error)
  | notText (verb found : String)
  | record (fault : RecordFault)
  | jsonata (error : Jsonata.Error)

def StageFault.message : StageFault → String
  | payload e => e.message
  | notText verb found => s!"{verb} expects text input, found {found}"
  | record fault => fault.message
  | jsonata e => e.message

namespace Stage

def verb : Stage → String
  | parseJson => "parse-json"
  | parseCsv _ => "parse-csv"
  | parseMarkup .xml => "parse-xml"
  | parseMarkup .html => "parse-html"
  | parseYaml => "parse-yaml"
  | scope _ => "scope"
  | project _ => "project"
  | projectAway _ => "project-away"
  | extend _ => "extend"
  | summarize _ _ => "summarize"
  | mvExpand _ => "mv-expand"
  | orderBy _ => "order by"
  | limit _ => "limit"
  | filter _ => "where"
  | count => "count"
  | jsonata _ => "jsonata"

def readsText : Stage → Bool
  | parseJson | parseCsv _ | parseMarkup _ | parseYaml => true
  | _ => false

/-- Applies a change to each item of an array, or to a sole value that is not null. -/
def mapRecords (change : Value → Except RecordFault Value) : Value → Except RecordFault Value
  | .array items => do return .array (← items.mapM change)
  | .null => .ok .null
  | other => change other

def lifted {α : Type} (x : Except RecordFault α) : Reporting StageFault α :=
  match x with
  | .ok a => return a
  | .error fault => throw (.record fault)

def readText (s : Stage) (type : Payload.ContentType) (o : Delimited.Options) :
    Value → Reporting StageFault Value
  | .string text => (Payload.readText type o text).mapError .payload
  | other => throw (.notText s.verb other.typeName)

def readJson : Value → Reporting StageFault Value
  | .string text =>
    (Payload.readText .json default (String.ofList (withoutMark text.toList))).mapError .payload
  | other => return other

def apply (s : Stage) (input : Value) : Reporting StageFault Value :=
  match s with
  | parseJson => readJson input
  | parseCsv o => readText s .csv o input
  | parseMarkup .xml => readText s .xml default input
  | parseMarkup .html => readText s .html default input
  | parseYaml => readText s .yaml default input
  | scope selector => return input.resolve selector
  | project assignments => lifted (mapRecords (Pipeline.project assignments) input)
  | projectAway fields => lifted (mapRecords (fun r => .ok (Pipeline.projectAway fields r)) input)
  | extend assignments => lifted (mapRecords (Pipeline.extend assignments) input)
  | summarize aggregates fields => do
    let groups := Pipeline.summarize aggregates fields input.rows
    Reporting.debug .aggregation s!"summarized {input.rows.length} rows into {groups.length} groups"
    return .array groups
  | mvExpand field => do
    let rows ← lifted (Pipeline.mvExpand field input.rows)
    Reporting.debug .expansion s!"mv-expand on '{field}' produced {rows.length} rows"
    return .array rows
  | orderBy keys => return .array (Pipeline.orderBy keys input.rows)
  | limit n => return .array (input.rows.take n)
  | filter predicate => do
    let kept := input.rows.filter fun row => predicate.holds row
    Reporting.debug .filter s!"where kept {kept.length} of {input.rows.length} rows"
    return .array kept
  | count => return .array [.object [("count", Value.ofNat input.rows.length)]]
  | jsonata e =>
    match e.evaluate input with
    | .ok v => return v
    | .error error => throw (.jsonata error)

end Stage

structure Failure where
  index : Nat
  fault : StageFault

def Failure.message (f : Failure) : String := s!"stage {f.index} failed: {f.fault.message}"

structure Program where
  name : String
  stages : List Stage

namespace Program

def startsWithParse (p : Program) : Bool := p.stages.head?.any Stage.readsText

def runFrom (name : String) (index : Nat) : List Stage → Value → Reporting Failure Value
  | [], v => return v
  | s :: rest, v => do
    let v ← (s.apply v).mapError (Failure.mk index)
    Reporting.debug .pipeline
      s!"pipeline '{name}' stage {index} ({s.verb}) produced {v.typeName}"
    runFrom name (index + 1) rest v

/-- Applies all stages in order; the first failure ends the run. -/
def run (p : Program) (input : Value) : Reporting Failure Value := runFrom p.name 0 p.stages input

end Program
end Tabulate.Pipeline
