import Tabulate.Jsonata.Parser
import Tabulate.Pipeline.Stage
import Tabulate.Text.Split

/-! Reading pipelines: stages between bars, each a verb and what belongs to it. -/
namespace Tabulate.Pipeline

inductive SyntaxFault
  | lexical (fault : Token.LexFault)
  | expected (symbol found : String)
  | noBar (found : String)
  | noVerb (found : String)
  | noBy (verb : String)
  | noField (found : String)
  | noNameAfterPoint
  | noCount (found : String)
  | noExpression (found : String)
  | argumentCount (function : String) (count : Nat)
  | noAggregate
  | aggregateCount (function : String) (count : Nat)
  | noQuotedExpression
  | noOperatorAfterNot
  | optionValue (option : String)
  | optionCharacter (option : String)
  | unknownOption (option : String)
  | jsonata (fault : Jsonata.Fault)
deriving DecidableEq

def SyntaxFault.message : SyntaxFault → String
  | lexical fault => fault.message
  | expected symbol found => s!"expected '{symbol}' but found {found}"
  | noBar found => s!"expected '|' between stages but found {found}"
  | noVerb found => s!"expected a verb but found {found}"
  | noBy verb => s!"expected 'by' after '{verb}'"
  | noField found => s!"expected a field but found {found}"
  | noNameAfterPoint => "expected a name after '.'"
  | noCount found => s!"expected a non-negative integer but found {found}"
  | noExpression found => s!"expected an expression but found {found}"
  | argumentCount function count => s!"function '{function}' does not take {count} argument(s)"
  | noAggregate => "expected an aggregation"
  | aggregateCount function count => s!"aggregation '{function}' does not take {count} argument(s)"
  | noQuotedExpression => "jsonata expects a quoted expression"
  | noOperatorAfterNot => "expected 'in', 'contains', 'startswith' or 'endswith' after '!'"
  | optionValue option => s!"invalid value for CSV option '{option}'"
  | optionCharacter option => s!"CSV option '{option}' needs a single character"
  | unknownOption option => s!"unknown CSV option '{option}'"
  | jsonata fault => fault.message

inductive ParseError
  | malformed (position : Nat) (fault : SyntaxFault)
  | unknownVerb (position : Nat) (verb : String)
  | unknownFunction (position : Nat) (name : String)
deriving DecidableEq

namespace ParseError

def position : ParseError → Nat
  | malformed position _ | unknownVerb position _ | unknownFunction position _ => position

def message : ParseError → String
  | malformed position fault => s!"syntax error at position {position}: {fault.message}"
  | unknownVerb position verb => s!"unknown verb '{verb}' at position {position}"
  | unknownFunction position name => s!"unknown function '{name}' at position {position}"

end ParseError

def fail {α : Type} (position : Nat) (fault : SyntaxFault) : Except ParseError α :=
  .error (.malformed position fault)

def expect (ts : Tokens) (symbol : String) : Except ParseError Tokens :=
  match ts.eat? symbol with
  | some ts => .ok ts
  | none => fail ts.position (.expected symbol ts.describe)

def readSteps : Nat → Tokens → Except ParseError (String × Tokens)
  | 0, ts => fail ts.position (.noExpression ts.describe)
  | fuel + 1, ts =>
    match ts.eat? "." with
    | some after =>
      match after.peek? with
      | some (.ident name) => do
        let (steps, ts) ← readSteps fuel after.tail
        return ("." ++ name ++ steps, ts)
      | _ => fail after.tail.position .noNameAfterPoint
    | none =>
      match ts.eat? "[" with
      | some after =>
        match after.peek? with
        | some (.number n) => do
          let (steps, ts) ← readSteps fuel (← expect after.tail "]")
          return (s!"[{n.toNat64}]" ++ steps, ts)
        | _ => .ok ("", ts)
      | none => .ok ("", ts)

def readBarePath (name : String) (ts : Tokens) : Except ParseError (String × Tokens) := do
  let (steps, ts) ← readSteps (ts.rest.length + 1) ts.tail
  return (name ++ steps, ts)

/-- A field: a path in double quotes or backticks, or a bare one. -/
def readField (ts : Tokens) : Except ParseError (String × Tokens) :=
  match ts.peek? with
  | some (.quoted text) | some (.backtick text) => .ok (text, ts.tail)
  | some (.ident name) => readBarePath name ts
  | _ => fail ts.position (.noField ts.describe)

def readList {α : Type} (read : Tokens → Except ParseError (α × Tokens)) :
    Nat → Tokens → Except ParseError (List α × Tokens)
  | 0, ts => fail ts.position (.noExpression ts.describe)
  | fuel + 1, ts => do
    let (first, ts) ← read ts
    match ts.eat? "," with
    | none => return ([first], ts)
    | some ts =>
      let (more, ts) ← readList read fuel ts
      return (first :: more, ts)

def readAll {α : Type} (read : Tokens → Except ParseError (α × Tokens)) (ts : Tokens) :
    Except ParseError (List α × Tokens) := readList read (ts.rest.length + 1) ts

def readWord (name : String) (ts : Tokens) : Except ParseError (Expr × Tokens) :=
  match name with
  | "true" => .ok (.literal (.bool true), ts.tail)
  | "false" => .ok (.literal (.bool false), ts.tail)
  | "null" => .ok (.literal .null, ts.tail)
  | _ => do
    let (text, ts) ← readBarePath name ts
    return (.field text, ts)

def readNegative (ts : Tokens) : Except ParseError (Expr × Tokens) :=
  match ts.eat? "-" with
  | none => fail ts.position (.noExpression ts.describe)
  | some after =>
    match after.peek? with
    | some (.number n) => .ok (.literal (.number n.neg), after.tail)
    | _ => fail ts.position (.noExpression ts.describe)

mutual

def readOperand : Nat → Tokens → Except ParseError (Expr × Tokens)
  | 0, ts => fail ts.position (.noExpression ts.describe)
  | fuel + 1, ts =>
    match ts.peek? with
    | some (.quoted text) | some (.backtick text) => .ok (.field text, ts.tail)
    | some (.singleQuoted text) => .ok (.literal (.string text), ts.tail)
    | some (.number n) => .ok (.literal (.number n), ts.tail)
    | some (.symbol _) => readNegative ts
    | some (.ident name) =>
      match ts.tail.eat? "(" with
      | none => readWord name ts
      | some inside =>
        match Function.ofName? name with
        | none => .error (.unknownFunction ts.position name)
        | some f => do
          let (args, after) ← readArguments fuel inside
          if f.accepts args.length then return (.call f args, after)
          else fail ts.position (.argumentCount f.name args.length)
    | _ => fail ts.position (.noExpression ts.describe)

def readArguments : Nat → Tokens → Except ParseError (List Expr × Tokens)
  | 0, ts => fail ts.position (.noExpression ts.describe)
  | fuel + 1, ts =>
    match ts.eat? ")" with
    | some ts => .ok ([], ts)
    | none => readMoreArguments fuel ts

def readMoreArguments : Nat → Tokens → Except ParseError (List Expr × Tokens)
  | 0, ts => fail ts.position (.noExpression ts.describe)
  | fuel + 1, ts => do
    let (arg, ts) ← readOperand fuel ts
    match ts.eat? ")" with
    | some ts => return ([arg], ts)
    | none =>
      let (more, ts) ← readMoreArguments fuel (← expect ts ",")
      return (arg :: more, ts)

end

/-- An expression, with as many steps as its tokens can need. -/
def readExpr (ts : Tokens) : Except ParseError (Expr × Tokens) := readOperand (4 * ts.rest.length + 4) ts

def readArgumentList (ts : Tokens) : Except ParseError (List Expr × Tokens) :=
  readArguments (4 * ts.rest.length + 4) ts

def labelOf? : Token → Option String
  | .quoted name | .ident name | .backtick name => some name
  | _ => none

def readAlias? (ts : Tokens) : Option (String × Tokens) := do
  let name ← ts.peek?.bind labelOf?
  let ts ← ts.tail.eat? "="
  return (name, ts)

def readAssignment (ts : Tokens) : Except ParseError (Assignment × Tokens) :=
  match readAlias? ts with
  | some (name, ts) => do
    let (e, ts) ← readExpr ts
    return (⟨name, e⟩, ts)
  | none => do
    let (e, ts) ← readExpr ts
    return (.unnamed e, ts)

/-- An aggregation such as `sum(price)`, named by its function unless it has a label. -/
def readLabelled (label : Option String) (ts : Tokens) : Except ParseError (Aggregate × Tokens) :=
  match ts.peek? with
  | some (.ident name) =>
    match AggregateFunction.ofName? name with
    | none => .error (.unknownFunction ts.position name)
    | some f => do
      let (args, after) ← readArgumentList (← expect ts.tail "(")
      let name := label.getD f.name
      match args, f with
      | [], .count => return (⟨name, f, none⟩, after)
      | [arg], f => return (⟨name, f, some arg⟩, after)
      | args, f => fail ts.position (.aggregateCount f.name args.length)
  | _ => fail ts.position .noAggregate

def readAggregate (ts : Tokens) : Except ParseError (Aggregate × Tokens) :=
  match readAlias? ts with
  | some (name, ts) => readLabelled (some name) ts
  | none => readLabelled none ts

def readSummarize (ts : Tokens) : Except ParseError (Stage × Tokens) := do
  let (aggregates, ts) ← readAll readAggregate ts
  match ts.eatWord? "by" with
  | none => return (.summarize aggregates [], ts)
  | some ts =>
    let (fields, ts) ← readAll readField ts
    return (.summarize aggregates fields, ts)

def readSortKey (ts : Tokens) : Except ParseError (SortKey × Tokens) := do
  let (field, ts) ← readField ts
  match ts.eatWord? "desc" with
  | some ts => return (.ofField field .descending, ts)
  | none => return (.ofField field .ascending, (ts.eatWord? "asc").getD ts)

def eatEither? (ts : Tokens) (word symbol : String) : Option Tokens :=
  (ts.eatWord? word).or (ts.eat? symbol)

def nextWord? (ts : Tokens) : Option String :=
  match ts.peek? with
  | some (.ident name) => some (Unicode.lower name)
  | _ => none

def nextSymbol? (ts : Tokens) : Option String :=
  match ts.peek? with
  | some (.symbol symbol) => some symbol
  | _ => none

def startsWithName (ts : Tokens) : Bool :=
  match ts.peek? with
  | some (.ident _) => true
  | _ => false

/-- What comes after the left side of a comparison, and after the sign of a negation. -/
def readRelation (left : Expr) (negated : Bool) (ts : Tokens) : Except ParseError (Predicate × Tokens) :=
  if nextWord? ts = some "in" then do
    let (list, ts) ← readArgumentList (← expect ts.tail "(")
    return (.isIn left list negated, ts)
  else
    let wordOp? := (nextWord? ts).bind CompareOp.ofWord?
    if negated && wordOp?.isNone then fail ts.position .noOperatorAfterNot
    else
      match wordOp?.or ((nextSymbol? ts).bind CompareOp.ofSymbol?) with
      | none => return (.truthy left, ts)
      | some op => do
        let (right, ts) ← readExpr ts.tail
        let compared := Predicate.compare left op right
        return (if negated then .not compared else compared, ts)

def readComparison (ts : Tokens) : Except ParseError (Predicate × Tokens) := do
  let (left, ts) ← readExpr ts
  if ts.startsWith "!" && startsWithName ts.tail then readRelation left true ts.tail
  else readRelation left false ts

mutual

def readAlternatives : Nat → Tokens → Except ParseError (Predicate × Tokens)
  | 0, ts => fail ts.position (.noExpression ts.describe)
  | fuel + 1, ts => do
    let (left, ts) ← readConditions fuel ts
    readMoreAlternatives fuel left ts

def readMoreAlternatives : Nat → Predicate → Tokens → Except ParseError (Predicate × Tokens)
  | 0, _, ts => fail ts.position (.noExpression ts.describe)
  | fuel + 1, left, ts =>
    match eatEither? ts "or" "||" with
    | none => .ok (left, ts)
    | some ts => do
      let (right, ts) ← readConditions fuel ts
      readMoreAlternatives fuel (.or left right) ts

def readConditions : Nat → Tokens → Except ParseError (Predicate × Tokens)
  | 0, ts => fail ts.position (.noExpression ts.describe)
  | fuel + 1, ts => do
    let (left, ts) ← readCondition fuel ts
    readMoreConditions fuel left ts

def readMoreConditions : Nat → Predicate → Tokens → Except ParseError (Predicate × Tokens)
  | 0, _, ts => fail ts.position (.noExpression ts.describe)
  | fuel + 1, left, ts =>
    match eatEither? ts "and" "&&" with
    | none => .ok (left, ts)
    | some ts => do
      let (right, ts) ← readCondition fuel ts
      readMoreConditions fuel (.and left right) ts

def readCondition : Nat → Tokens → Except ParseError (Predicate × Tokens)
  | 0, ts => fail ts.position (.noExpression ts.describe)
  | fuel + 1, ts =>
    match eatEither? ts "not" "!" with
    | some ts => do
      let (inner, ts) ← readCondition fuel ts
      return (.not inner, ts)
    | none =>
      match ts.eat? "(" with
      | some ts => do
        let (inner, ts) ← readAlternatives fuel ts
        return (inner, ← expect ts ")")
      | none => readComparison ts

end

/-- A condition, with as many steps as its tokens can need. -/
def readPredicate (ts : Tokens) : Except ParseError (Predicate × Tokens) :=
  readAlternatives (5 * ts.rest.length + 5) ts

def readCount (ts : Tokens) : Except ParseError (Nat × Tokens) :=
  match ts.peek? with
  | some (.number n) =>
    if n.isWhole && !n.less 0 then .ok (n.toNat64, ts.tail)
    else fail ts.position (.noCount ts.describe)
  | _ => fail ts.position (.noCount ts.describe)

def readExpression (ts : Tokens) : Except ParseError (Jsonata.Expression × Tokens) :=
  match ts.peek? with
  | some (.singleQuoted text) | some (.quoted text) =>
    match Jsonata.Expression.parse text with
    | .ok e => .ok (e, ts.tail)
    | .error e => fail (ts.position + 1 + e.position) (.jsonata e.fault)
  | _ => fail ts.position .noQuotedExpression

def leadsToOption : Token → Bool
  | .symbol "-" | .ident _ => true
  | _ => false

def dropHyphens : List Lexeme → List Lexeme
  | [] => []
  | first :: rest =>
    if first.token = .symbol "-" ∧ (rest.head?.any fun next => leadsToOption next.token) then
      dropHyphens rest
    else first :: rest

def optionValueOf? : Token → Option Value
  | .quoted text | .singleQuoted text => some (.string text)
  | .ident "true" => some (.bool true)
  | .ident "false" => some (.bool false)
  | .number n => some (.number n)
  | _ => none

/-- The value after the name of an option; without one it is switched on. -/
def readOptionValue (key : String) (ts : Tokens) : Except ParseError (Value × Tokens) :=
  match ts.eat? "=" with
  | none => .ok (.bool true, ts)
  | some after =>
    match after.peek?.bind optionValueOf? with
    | some value => .ok (value, after.tail)
    | none => fail after.position (.optionValue key)

def onlyCharacter (option : String) (value : Value) : Except SyntaxFault Char :=
  match value.text.toList with
  | [c] => .ok c
  | _ => .error (.optionCharacter option)

def setOption (o : Delimited.Options) (key : String) (value : Value) :
    Except SyntaxFault Delimited.Options :=
  let character := onlyCharacter key value
  match key with
  | "delimiter" => do return { o with delimiter := ← character }
  | "quote" => do return { o with quote := ← character }
  | "comment" => do return { o with comment := some (← character) }
  | "headers" | "columns" =>
    let names := (Text.splitAt [','] value.text.toList).map fun name => String.ofList (Unicode.trim name)
    .ok { o with headers := names }
  | "has_header" => .ok { o with hasHeader := value.isTruthy }
  | "skip_empty_lines" => .ok { o with skipEmptyLines := value.isTruthy }
  | "skip_lines_with_error" => .ok { o with skipFaultyLines := value.isTruthy }
  | "relax_column_count" => .ok { o with relaxColumnCount := value.isTruthy }
  | _ => .error (.unknownOption key)

def readOptions : Nat → Delimited.Options → Tokens →
    Except ParseError (Delimited.Options × Tokens)
  | 0, _, ts => fail ts.position (.noExpression ts.describe)
  | fuel + 1, o, ts =>
    let ts := { ts with rest := dropHyphens ts.rest }
    match ts.peek? with
    | some (.ident name) => do
      let key := Unicode.lower name
      let (value, after) ← readOptionValue key ts.tail
      let o ← (setOption o key value).mapError (.malformed ts.position)
      readOptions fuel o after
    | _ => .ok (o, ts)

inductive Verb
  | parseJson
  | parseCsv
  | parseMarkup (language : Markup.Language)
  | parseYaml
  | scope
  | project
  | projectAway
  | extend
  | summarize
  | mvExpand
  | orderBy
  | limit
  | filter
  | count
  | jsonata

def Verb.ofName? : String → Option Verb
  | "parse-json" => some parseJson
  | "parse-csv" => some parseCsv
  | "parse-xml" => some (parseMarkup .xml)
  | "parse-html" => some (parseMarkup .html)
  | "parse-yaml" => some parseYaml
  | "scope" => some scope
  | "project" => some project
  | "project-away" => some projectAway
  | "extend" => some extend
  | "summarize" => some summarize
  | "mv-expand" => some mvExpand
  | "order" | "sort" => some orderBy
  | "limit" | "take" => some limit
  | "where" => some filter
  | "count" => some count
  | "jsonata" => some jsonata
  | _ => none

def readSortKeys (name : String) (ts : Tokens) : Except ParseError (Stage × Tokens) :=
  match ts.eatWord? "by" with
  | none => fail ts.position (.noBy name)
  | some ts => do
    let (keys, ts) ← readAll readSortKey ts
    return (.orderBy keys, ts)

/-- The stage of a verb, given the tokens after its name. Options for delimited text start from
defaults. -/
def readVerb (defaults : Delimited.Options) (name : String) (verb : Verb) (ts : Tokens) :
    Except ParseError (Stage × Tokens) :=
  match verb with
  | .parseJson => .ok (.parseJson, ts)
  | .parseCsv => do
    let (o, ts) ← readOptions (ts.rest.length + 1) defaults ts
    return (.parseCsv o, ts)
  | .parseMarkup language => .ok (.parseMarkup language, ts)
  | .parseYaml => .ok (.parseYaml, ts)
  | .scope => do
    let (field, ts) ← readField ts
    return (.scope field, ts)
  | .project => do
    let (assignments, ts) ← readAll readAssignment ts
    return (.project assignments, ts)
  | .projectAway => do
    let (fields, ts) ← readAll readField ts
    return (.projectAway fields, ts)
  | .extend => do
    let (assignments, ts) ← readAll readAssignment ts
    return (.extend assignments, ts)
  | .summarize => readSummarize ts
  | .mvExpand => do
    let (field, ts) ← readField ts
    return (.mvExpand field, ts)
  | .orderBy => readSortKeys name ts
  | .limit => do
    let (n, ts) ← readCount ts
    return (.limit n, ts)
  | .filter => do
    let (predicate, ts) ← readPredicate ts
    return (.filter predicate, ts)
  | .count => .ok (.count, ts)
  | .jsonata => do
    let (e, ts) ← readExpression ts
    return (.jsonata e, ts)

def readStage (defaults : Delimited.Options) (ts : Tokens) : Except ParseError (Stage × Tokens) :=
  match ts.peek? with
  | some (.ident name) =>
    match Verb.ofName? (Unicode.lower name) with
    | some verb => readVerb defaults name verb ts.tail
    | none => .error (.unknownVerb ts.position name)
  | _ => fail ts.position (.noVerb ts.describe)

/-- Stages between bars; a last bar may end the text. -/
def readStages (defaults : Delimited.Options) : Nat → Tokens → Except ParseError (List Stage)
  | 0, ts => fail ts.position (.noVerb ts.describe)
  | fuel + 1, ts =>
    if ts.isEmpty then .ok []
    else do
      let (stage, ts) ← readStage defaults ts
      if ts.isEmpty then return [stage]
      else
        match ts.eat? "|" with
        | none => fail ts.position (.noBar ts.describe)
        | some ts => return stage :: (← readStages defaults fuel ts)

def Stage.parseAll (defaults : Delimited.Options) (source : String) : Except ParseError (List Stage) := do
  let ts ← (Token.stream source true).mapError fun e => .malformed e.position (.lexical e.fault)
  readStages defaults (ts.rest.length + 1) ts

def Program.parse (defaults : Delimited.Options) (source : String) : Reporting ParseError Program := do
  match Stage.parseAll defaults source with
  | .error e => throw e
  | .ok stages =>
    Reporting.debug .pipelineText s!"parsed pipeline with {stages.length} stages"
    return ⟨"uql", stages⟩

end Tabulate.Pipeline
