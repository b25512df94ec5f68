import Tabulate.Jsonata.Basic

/-! Reading JSONata expressions by the binding powers of their operators. -/
namespace Tabulate.Jsonata

def fail {α : Type} (position : Nat) (fault : Fault) : Except Error α :=
  .error ⟨position, fault⟩

def expect (ts : Tokens) (symbol : String) : Except Error Tokens :=
  match ts.eat? symbol with
  | some ts => .ok ts
  | none => fail ts.position (.expected symbol ts.describe)

def BinaryOp.ofToken? : Token → Option BinaryOp
  | .symbol "+" => some add
  | .symbol "-" => some sub
  | .symbol "*" => some mul
  | .symbol "/" => some div
  | .symbol "%" => some mod
  | .symbol "&" => some concat
  | .symbol "=" | .symbol "==" => some eq
  | .symbol "!=" => some ne
  | .symbol "<" => some lt
  | .symbol "<=" => some le
  | .symbol ">" => some gt
  | .symbol ">=" => some ge
  | .ident "and" => some and
  | .ident "or" => some or
  | .ident "in" => some isIn
  | _ => none

def conditionPower : Nat := 1
def pathPower : Nat := 7
def predicatePower : Nat := 8

mutual

/-- An expression whose operators bind at least as tightly as the given power. -/
def readExpression : Nat → Nat → Tokens → Except Error (Node × Tokens)
  | 0, _, ts => fail ts.position .unexpectedEnd
  | fuel + 1, power, ts => do
    let (left, ts) ← readOperand fuel ts
    readOperators fuel power left ts

def readOperators : Nat → Nat → Node → Tokens → Except Error (Node × Tokens)
  | 0, _, _, ts => fail ts.position .unexpectedEnd
  | fuel + 1, power, left, ts =>
    match ts.peek? with
    | none => .ok (left, ts)
    | some (.symbol ".") =>
      if pathPower < power then .ok (left, ts)
      else do
        let (right, ts) ← readExpression fuel (pathPower + 1) ts.tail
        readOperators fuel power (.path left right) ts
    | some (.symbol "[") =>
      if predicatePower < power then .ok (left, ts)
      else
        match ts.tail.eat? "]" with
        | some ts => readOperators fuel power (.toArray left) ts
        | none => do
          let (predicate, ts) ← readExpression fuel 0 ts.tail
          let ts ← expect ts "]"
          readOperators fuel power (.filter left predicate) ts
    | some (.symbol "?") =>
      if conditionPower < power then .ok (left, ts)
      else do
        let (yes, ts) ← readExpression fuel 0 ts.tail
        match ts.eat? ":" with
        | some ts => do
          let (no, ts) ← readExpression fuel conditionPower ts
          readOperators fuel power (.condition left yes (some no)) ts
        | none => readOperators fuel power (.condition left yes none) ts
    | some token =>
      match BinaryOp.ofToken? token with
      | none => .ok (left, ts)
      | some op =>
        if op.power < power then .ok (left, ts)
        else do
          let (right, after) ← readExpression fuel (op.power + 1) ts.tail
          readOperators fuel power (.binary op left right ts.position) after

def readOperand : Nat → Tokens → Except Error (Node × Tokens)
  | 0, ts => fail ts.position .unexpectedEnd
  | fuel + 1, ts =>
    let position := ts.position
    let rest := ts.tail
    match ts.peek? with
    | none => fail position .unexpectedEnd
    | some (.number n) => .ok (.literal (.number n), rest)
    | some (.quoted text) | some (.singleQuoted text) => .ok (.literal (.string text), rest)
    | some (.backtick name) => .ok (.field name, rest)
    | some (.ident "true") => .ok (.literal (.bool true), rest)
    | some (.ident "false") => .ok (.literal (.bool false), rest)
    | some (.ident "null") => .ok (.literal .null, rest)
    | some (.ident name) => .ok (.field name, rest)
    | some (.dollar "") => .ok (.context, rest)
    | some (.dollar "$") => .ok (.root, rest)
    | some (.dollar name) =>
      match rest.eat? "(", Function.ofName? name with
      | none, _ => fail position (.unknownVariable name)
      | some _, none => fail position (.unknownFunction name)
      | some ts, some _ => do
        let (args, ts) ← readList fuel ")" ts
        return (.called name args position, ts)
    | some (.symbol "(") => do
      let (inner, ts) ← readExpression fuel 0 rest
      return (inner, ← expect ts ")")
    | some (.symbol "[") => do
      let (items, ts) ← readList fuel "]" rest
      return (.array items, ts)
    | some (.symbol "\x7b") =>
      match rest.eat? "\x7d" with
      | some ts => .ok (.object [], ts)
      | none => do
        let (entries, ts) ← readEntries fuel rest
        return (.object entries, ts)
    | some (.symbol "*") => .ok (.wildcard, rest)
    | some (.symbol "-") => do
      let (operand, ts) ← readExpression fuel pathPower rest
      return (.negate operand position, ts)
    | some (.symbol other) => fail position (.unexpected (Token.describe (.symbol other)))

def readList : Nat → String → Tokens → Except Error (List Node × Tokens)
  | 0, _, ts => fail ts.position .unexpectedEnd
  | fuel + 1, close, ts =>
    match ts.eat? close with
    | some ts => .ok ([], ts)
    | none => readItems fuel close ts

def readItems : Nat → String → Tokens → Except Error (List Node × Tokens)
  | 0, _, ts => fail ts.position .unexpectedEnd
  | fuel + 1, close, ts => do
    let (item, ts) ← readExpression fuel 0 ts
    match ts.eat? close with
    | some ts => return ([item], ts)
    | none =>
      let (more, ts) ← readItems fuel close (← expect ts ",")
      return (item :: more, ts)

def readEntries : Nat → Tokens → Except Error (List (Node × Node) × Tokens)
  | 0, ts => fail ts.position .unexpectedEnd
  | fuel + 1, ts => do
    let (key, ts) ← readExpression fuel 0 ts
    let (value, ts) ← readExpression fuel 0 (← expect ts ":")
    match ts.eat? "\x7d" with
    | some ts => return ([(key, value)], ts)
    | none =>
      let (more, ts) ← readEntries fuel (← expect ts ",")
      return ((key, value) :: more, ts)

end

def Expression.parse (source : String) : Except Error Expression := do
  let ts ← (Token.stream source false).mapError fun e => ⟨e.position, .lexical e.fault⟩
  if ts.isEmpty then fail 0 .empty
  else
    let (node, ts) ← readExpression (4 * ts.rest.length + 4) 0 ts
    if ts.isEmpty then return ⟨source, node⟩
    else fail ts.position (.unexpected ts.describe)

end Tabulate.Jsonata
