/-! The words of a command line: options before and after the name of a command, and the task
that they state. -/
namespace Tabulate.Command

structure Switch where
  long : String
  letter : Option Char
  /-- What the value stands for; an option without a value is a flag. -/
  value : Option String
  summary : String
deriving DecidableEq

inductive Verb
  | query
  | server
deriving DecidableEq

namespace Switch

def config : Switch := ⟨"config", some 'c', some "FILE", "Sets a custom config file"⟩

def help : Switch := ⟨"help", some 'h', none, "Print help information"⟩

def version : Switch := ⟨"version", some 'V', none, "Print version information"⟩

def input : Switch := ⟨"input", some 'i', some "FILE", "Payload file"⟩

def column : Switch :=
  ⟨"column", none, some "SELECTOR:ALIAS:FORMAT", "Output column; may be repeated"⟩

def main : List Switch := [config, help, version]

end Switch

namespace Verb

def all : List Verb := [query, server]

def name : Verb → String
  | query => "query"
  | server => "server"

def summary : Verb → String
  | query => "Run one query over a payload file and print the result as JSON"
  | server => "Run the API server"

def switches : Verb → List Switch
  | query => [.config, .column, .help, .input,
    ⟨"parser", none, some "PARSER", "simple, backend, uql or groq [default: simple]"⟩,
    ⟨"query", some 'q', some "TEXT", "UQL or GROQ query text"⟩,
    ⟨"root", some 'r', some "SELECTOR", "Root selector applied before column extraction"⟩,
    ⟨"type", some 't', some "TYPE", "Payload type: json, csv, tsv, xml, html, graphql or yaml"⟩,
    ⟨"timeseries", none, none, "Produce a time series instead of a table"⟩]
  | server => [.config, .help, ⟨"host", some 'H', some "HOST", "Sets the server host"⟩,
    ⟨"port", some 'p', some "PORT", "Sets the server port"⟩]

def ofName? (text : String) : Option Verb := all.find? (·.name == text)

end Verb

inductive Word
  | plain
  /-- Two dashes alone: no option follows. -/
  | terminator
  | long (name : String) (attached : Option String)
  | short (letter : Char) (attached : Option String)
deriving DecidableEq

private def afterEquals? : List Char → Option String
  | '=' :: value => some (String.ofList value)
  | _ => none

def Word.ofText (text : String) : Word :=
  match text.toList with
  | ['-', '-'] => terminator
  | '-' :: '-' :: rest =>
    long (String.ofList (rest.takeWhile (· ≠ '='))) (afterEquals? (rest.dropWhile (· ≠ '=')))
  | ['-', c] => short c none
  | '-' :: c :: rest => short c (some ((afterEquals? rest).getD (String.ofList rest)))
  | _ => plain

inductive Halt
  | help (verb : Option Verb)
  | version
  | misuse
deriving DecidableEq

abbrev Given := List (String × String)

namespace Given

def values (g : Given) (name : String) : List String := (g.filter (·.1 == name)).map (·.2)

def value? (g : Given) (name : String) : Option String := (g.values name).head?

/-- Only columns are given more than once. -/
def isUnambiguous (g : Given) : Bool :=
  g.all fun (name, _) => name == Switch.column.long || (g.values name).length == 1

end Given

/-- Reads options up to the first word that is none. The value of an option is attached or
is the next word, which then starts with no dash. -/
def readSwitches (verb : Option Verb) (switches : List Switch) :
    List String → Except Halt (Given × List String)
  | [] => .ok ([], [])
  | word :: rest => do
    let (found, attached, isLong) ← match Word.ofText word with
      | .plain => return ([], word :: rest)
      | .terminator => if rest.isEmpty then return ([], []) else throw .misuse
      | .long name attached => pure (switches.find? (·.long == name), attached, true)
      | .short letter attached => pure (switches.find? (·.letter == some letter), attached, false)
    match found with
    | none => throw .misuse
    | some s =>
      match s.value, attached with
      | some _, some value =>
        let (given, words) ← readSwitches verb switches rest
        return ((s.long, value) :: given, words)
      | some _, none =>
        match rest with
        | [] => throw .misuse
        | value :: rest =>
          if Word.ofText value ≠ .plain then throw .misuse
          let (given, words) ← readSwitches verb switches rest
          return ((s.long, value) :: given, words)
      | none, attached =>
        if isLong ∧ attached.isSome then throw .misuse
        if s = .help then throw (.help verb)
        if s = .version then throw .version
        if attached.isSome then throw .misuse
        let (given, words) ← readSwitches verb switches rest
        return ((s.long, "") :: given, words)

structure QueryTask where
  input : String
  type : Option String
  engine : String
  source : String
  root : String
  columns : List String
  asSeries : Bool

inductive Task
  | none
  | server (host port : Option String)
  | query (q : QueryTask)

structure Invocation where
  config : Option String
  task : Task

private def taskOf (verb : Verb) (given : Given) : Except Halt Task :=
  match verb with
  | .server => return .server (given.value? "host") (given.value? "port")
  | .query =>
    match given.value? Switch.input.long with
    | none => throw .misuse
    | some input => return .query {
        input := input
        type := given.value? "type"
        engine := (given.value? "parser").getD "simple"
        source := (given.value? "query").getD ""
        root := (given.value? "root").getD ""
        columns := given.values Switch.column.long
        asSeries := (given.value? "timeseries").isSome }

private def helpFor : List String → Halt
  | [] => .help none
  | [name] => ((Verb.ofName? name).map (.help ∘ some)).getD .misuse
  | _ => .misuse

private def readTask : List String → Except Halt (Given × Task)
  | [] => return ([], .none)
  | "help" :: names => throw (helpFor names)
  | name :: rest =>
    match Verb.ofName? name with
    | none => throw .misuse
    | some verb => do
      let (own, rest) ← readSwitches (some verb) verb.switches rest
      if !rest.isEmpty ∨ !own.isUnambiguous then throw .misuse
      return (own, ← taskOf verb own)

/-- What a command line asks for. A configuration that is named after the command counts
before one that is named in front of it. -/
def Invocation.ofWords (words : List String) : Except Halt Invocation := do
  let (given, rest) ← readSwitches none Switch.main words
  let (own, task) ← readTask rest
  if !given.isUnambiguous then throw .misuse
  return ⟨(own.value? Switch.config.long).or (given.value? Switch.config.long), task⟩

end Tabulate.Command
