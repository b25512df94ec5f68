import Tabulate.Frame.Series
import Tabulate.Groq.Eval
import Tabulate.Groq.Parser
import Tabulate.Pipeline.Parser
import Tabulate.Query.Request

/-! Answering requests: a payload is read, an engine takes rows from it, and the rows become
a table or series. -/
namespace Tabulate.Query

inductive Input
  | bytes (bytes : List Nat)
  | text (text : String)
  /-- A value that needs no reading. -/
  | value (value : Value)

inductive Output
  | table (table : Table)
  | series (set : SeriesSet)

structure Response where
  output : Output
  warnings : List String

inductive Error
  | payload (error : Payload.Error)
  | parse (error : Pipeline.ParseError)
  | stage (failure : Pipeline.Failure)
  | groq (error : Groq.SyntaxError)
  | jsonata (error : Jsonata.Error)
  | series (fault : SeriesFault)
  | request (fault : RequestFault)

def Error.message : Error → String
  | payload e => e.message
  | parse e => e.message
  | stage f => f.message
  | groq e => e.message
  | jsonata e => e.message
  | series f => f.message
  | request f => s!"invalid request: {f.message}"

def orThrow {ε α : Type} (f : ε → Error) (x : Except ε α) : Reporting Error α :=
  match x with
  | .ok a => return a
  | .error e => throw (f e)

def Input.read (type : Payload.ContentType) (o : Delimited.Options) : Input → Reporting Error Value
  | bytes b => (Payload.read type o b).mapError .payload
  | text t =>
    (Payload.readText type o (String.ofList (withoutMark t.toList))).mapError .payload
  | value v => return v

/-- A payload before it is read: text stays text. -/
def Input.raw : Input → Except Error Value
  | bytes b => ((decodeText b).map Value.string).mapError (.payload ∘ .encoding)
  | text t => .ok (.string t)
  | value v => .ok v

/-- The part of a value that a selector selects; one with a dollar sign is an expression. -/
def selectRoot (selector : String) (v : Value) : Except Jsonata.Error Value :=
  let trimmed := Unicode.trim selector.toList
  let selector := String.ofList trimmed
  if selector = "" ∨ selector = "$" ∨ selector = "." then .ok v
  else if trimmed.head? = some '$' then do (← Jsonata.Expression.parse selector).evaluate v
  else .ok (v.resolve selector)

def readRoot (r : Request) (o : Delimited.Options) (input : Input) : Reporting Error Value := do
  orThrow .jsonata (selectRoot r.root (← input.read r.contentType o))

/-- The value that an engine makes of a payload. A program that starts by reading text takes
the payload as it is. -/
def runEngine (r : Request) (o : Delimited.Options) (input : Input) : Reporting Error Value :=
  match r.engine with
  | .simple | .backend => readRoot r o input
  | .uql => do
    let program ← (Pipeline.Program.parse o r.uql).mapError .parse
    let start ← if program.startsWithParse then orThrow id input.raw else readRoot r o input
    (program.run start).mapError .stage
  | .groq => do
    let query ← orThrow .groq (Groq.Query.parse r.groq)
    return query.evaluate (← readRoot r o input)

def shapeRows (r : Request) (columns : List Column) (rows : List Value) : Reporting Error Output :=
  match r.shape with
  | .table => return .table (← Table.ofRows r.name columns rows)
  | .series => return .series (← (SeriesSet.ofRows r.name columns rows).mapError .series)

def answer (defaults : Defaults) (r : Request) (input : Input) : Reporting Error Output := do
  orThrow .request r.check
  Reporting.debug .query s!"executing {r.engine.title} query over {r.contentType.title} payload"
  let v ← runEngine r (r.options.getD defaults.options) input
  shapeRows r (r.columns.map (·.withPattern defaults.pattern)) v.rows

/-- Answers a request with all warnings raised on the way, and the reports made. -/
def respond (defaults : Defaults) (r : Request) (input : Input) : Except Error Response × Journal :=
  let (result, journal) := (answer defaults r input).outcome
  (result.map (⟨·, journal.warnings⟩), journal)

def Response.toTree (r : Response) : Json.Tree :=
  .object [
    match r.output with
    | .table t => ("table", t.toTree)
    | .series s => ("timeseries", s.toTree),
    ("warnings", .array (r.warnings.map .string))]

end Tabulate.Query
