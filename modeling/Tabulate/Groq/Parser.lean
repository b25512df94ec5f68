import Tabulate.Groq.Basic

/-! Reading GROQ queries. -/
namespace Tabulate.Groq
open Pipeline (Direction)

def fail {α : Type} (position : Nat) (fault : Fault) : Except SyntaxError α :=
  .error ⟨position, fault⟩

def expect (ts : Tokens) (symbol : String) : Except SyntaxError Tokens :=
  match ts.eat? symbol with
  | some ts => .ok ts
  | none => fail ts.position (.expected symbol ts.describe)

def readSteps : List Lexeme → Nat → Except SyntaxError (Path × List Lexeme)
  | ⟨.symbol ".", _⟩ :: ⟨.ident name, _⟩ :: rest, finish => do
    let (steps, rest) ← readSteps rest finish
    return (.key name :: steps, rest)
  | ⟨.symbol ".", _⟩ :: rest, finish =>
    fail (Tokens.position ⟨rest.tail, finish⟩) .noAttributeAfterPoint
  | ⟨.symbol "[", _⟩ :: ⟨.number n, _⟩ :: ⟨.symbol "]", _⟩ :: rest, finish => do
    let (steps, rest) ← readSteps rest finish
    return (.index n.toNat64 :: steps, rest)
  | rest, _ => .ok ([], rest)

def readPath (ts : Tokens) : Except SyntaxError (Path × Tokens) :=
  match ts.peek? with
  | some (.ident name) => do
    let (steps, rest) ← readSteps ts.tail.rest ts.finish
    return (.key name :: steps, { ts with rest := rest })
  | some (.symbol "@") => do
    let (steps, rest) ← readSteps ts.tail.rest ts.finish
    return (steps, { ts with rest := rest })
  | _ => fail ts.tail.position .noAttribute

def CompareOp.ofToken? : Token → Option CompareOp
  | .symbol "==" => some eq
  | .symbol "!=" => some ne
  | .symbol ">" => some gt
  | .symbol ">=" => some ge
  | .symbol "<" => some lt
  | .symbol "<=" => some le
  | _ => none

mutual

def readOr : Nat → Tokens → Except SyntaxError (Expr × Tokens)
  | 0, ts => fail ts.position .unexpectedEnd
  | fuel + 1, ts => do
    let (left, ts) ← readAnd fuel ts
    readMoreOr fuel left ts

def readMoreOr : Nat → Expr → Tokens → Except SyntaxError (Expr × Tokens)
  | 0, _, ts => fail ts.position .unexpectedEnd
  | fuel + 1, left, ts =>
    match ts.eat? "||" with
    | none => .ok (left, ts)
    | some ts => do
      let (right, ts) ← readAnd fuel ts
      readMoreOr fuel (.or left right) ts

def readAnd : Nat → Tokens → Except SyntaxError (Expr × Tokens)
  | 0, ts => fail ts.position .unexpectedEnd
  | fuel + 1, ts => do
    let (left, ts) ← readUnary fuel ts
    readMoreAnd fuel left ts

def readMoreAnd : Nat → Expr → Tokens → Except SyntaxError (Expr × Tokens)
  | 0, _, ts => fail ts.position .unexpectedEnd
  | fuel + 1, left, ts =>
    match ts.eat? "&&" with
    | none => .ok (left, ts)
    | some ts => do
      let (right, ts) ← readUnary fuel ts
      readMoreAnd fuel (.and left right) ts

def readUnary : Nat → Tokens → Except SyntaxError (Expr × Tokens)
  | 0, ts => fail ts.position .unexpectedEnd
  | fuel + 1, ts =>
    match ts.eat? "!" with
    | some ts => do
      let (inner, ts) ← readUnary fuel ts
      return (.not inner, ts)
    | none => readComparison fuel ts

def readComparison : Nat → Tokens → Except SyntaxError (Expr × Tokens)
  | 0, ts => fail ts.position .unexpectedEnd
  | fuel + 1, ts => do
    let (left, ts) ← readPrimary fuel ts
    match ts.peek?.bind CompareOp.ofToken? with
    | some op =>
      let (right, ts) ← readPrimary fuel ts.tail
      return (.compare op left right, ts)
    | none =>
      match ts.eatWord? "in" with
      | some ts =>
        let (right, ts) ← readPrimary fuel ts
        return (.isIn left right, ts)
      | none => return (left, ts)

def readPrimary : Nat → Tokens → Except SyntaxError (Expr × Tokens)
  | 0, ts => fail ts.position .unexpectedEnd
  | fuel + 1, ts =>
    let rest := ts.tail
    match ts.peek?, ts.peekSecond? with
    | some (.number n), _ => .ok (.literal (.number n), rest)
    | some (.symbol "-"), some (.number n) => .ok (.literal (.number n.neg), rest.tail)
    | some (.quoted text), _ | some (.singleQuoted text), _ => .ok (.literal (.string text), rest)
    | some (.symbol "("), _ => do
      let (inner, ts) ← readOr fuel rest
      return (inner, ← expect ts ")")
    | some (.symbol "["), _ =>
      match rest.eat? "]" with
      | some ts => .ok (.array [], ts)
      | none => do
        let (items, ts) ← readItems fuel rest
        return (.array items, ts)
    | some (.ident "defined"), some (.symbol "(") => do
      let (inner, ts) ← readPrimary fuel rest.tail
      return (.defined inner, ← expect ts ")")
    | some (.ident "true"), _ => .ok (.literal (.bool true), rest)
    | some (.ident "false"), _ => .ok (.literal (.bool false), rest)
    | some (.ident "null"), _ => .ok (.literal .null, rest)
    | some (.ident _), _ | some (.symbol "@"), _ => do
      let (path, ts) ← readPath ts
      return (.path path, ts)
    | some other, _ => fail ts.position (.unexpected other.describe)
    | none, _ => fail ts.position .unexpectedEnd

def readItems : Nat → Tokens → Except SyntaxError (List Expr × Tokens)
  | 0, ts => fail ts.position .unexpectedEnd
  | fuel + 1, ts => do
    let (item, ts) ← readPrimary fuel ts
    match ts.eat? "]" with
    | some ts => return ([item], ts)
    | none =>
      let (more, ts) ← readItems fuel (← expect ts ",")
      return (item :: more, ts)

end

/-- An expression, with as many steps as its tokens can need. -/
def readExpr (ts : Tokens) : Except SyntaxError (Expr × Tokens) :=
  readOr (6 * ts.rest.length + 6) ts

def readInteger? (ts : Tokens) : Option (Int × Tokens) :=
  match ts.peek?, ts.peekSecond? with
  | some (.number n), _ => if n.isWhole then some (n.toInt64, ts.tail) else none
  | some (.symbol "-"), some (.number n) =>
    if n.isWhole then some (-n.toInt64, ts.tail.tail) else none
  | _, _ => none

def readRange? (ts : Tokens) : Except SyntaxError (Option (Segment × Tokens)) :=
  match readInteger? ts with
  | none => .ok none
  | some (first, ts) =>
    match ts.eat? "]" with
    | some ts => .ok (some (.index first, ts))
    | none =>
      match ts.eat? "..", ts.eat? "..." with
      | none, none => .ok none
      | some ts, _ => (slice first true ts).map some
      | none, some ts => (slice first false ts).map some
where
  slice (first : Int) (inclusive : Bool) (ts : Tokens) : Except SyntaxError (Segment × Tokens) :=
    match readInteger? ts with
    | none => fail ts.position .noRangeEnd
    | some (last, ts) => do return (.slice first last inclusive, ← expect ts "]")

def readEntry (ts : Tokens) : Except SyntaxError (Entry × Tokens) :=
  match ts.peek? with
  | some (.symbol "...") => .ok (.spread, ts.tail)
  | some (.quoted name) | some (.singleQuoted name) => do
    let (value, ts) ← readExpr (← expect ts.tail ":")
    return (.field name value, ts)
  | _ => do
    let (path, ts) ← readPath ts
    match path.getLast? with
    | some (.key name) => return (.field name (.path path), ts)
    | _ => fail ts.position .noEntryName

/-- Entries between commas up to the closing brace, which a last comma may precede. -/
def readEntries : Nat → Tokens → Except SyntaxError (List Entry × Tokens)
  | 0, ts => fail ts.position .unexpectedEnd
  | fuel + 1, ts =>
    match ts.eat? "\x7d" with
    | some ts => .ok ([], ts)
    | none => do
      let (entry, ts) ← readEntry ts
      match ts.eat? "," with
      | some ts =>
        let (more, ts) ← readEntries fuel ts
        return (entry :: more, ts)
      | none => return ([entry], ← expect ts "\x7d")

def readDirection (ts : Tokens) : Direction × Tokens :=
  match ts.eatWord? "desc" with
  | some ts => (.descending, ts)
  | none => (.ascending, (ts.eatWord? "asc").getD ts)

def readKeys : Nat → Tokens → Except SyntaxError (List (Path × Direction) × Tokens)
  | 0, ts => fail ts.position .unexpectedEnd
  | fuel + 1, ts => do
    let (path, ts) ← readPath ts
    let (direction, ts) := readDirection ts
    match ts.eat? ")" with
    | some ts => return ([(path, direction)], ts)
    | none =>
      let (more, ts) ← readKeys fuel (← expect ts ",")
      return ((path, direction) :: more, ts)

def readSegment (ts : Tokens) : Except SyntaxError (Segment × Tokens) :=
  match ts.peek? with
  | some (.symbol "[") => do
    match ← readRange? ts.tail with
    | some found => return found
    | none =>
      let (condition, ts) ← readExpr ts.tail
      return (.filter condition, ← expect ts "]")
  | some (.symbol "\x7b") => do
    let (entries, ts) ← readEntries (ts.rest.length + 1) ts.tail
    return (.projection entries, ts)
  | some (.symbol "|") =>
    match ts.tail.eatWord? "order" with
    | none => fail ts.tail.position (.noOrder ts.tail.describe)
    | some ts => do
      let (keys, ts) ← readKeys (ts.rest.length + 1) (← expect ts "(")
      return (.order keys, ts)
  | _ => fail ts.position (.unexpected ts.describe)

def readSegments : Nat → Tokens → Except SyntaxError (List Segment)
  | 0, _ => .ok []
  | fuel + 1, ts =>
    if ts.isEmpty then .ok []
    else do
      let (segment, ts) ← readSegment ts
      return segment :: (← readSegments fuel ts)

/-- Reads a query; an empty text selects everything. -/
def Query.parse (source : String) : Except SyntaxError Query := do
  let ts ← (Token.stream source false).mapError fun e => ⟨e.position, .lexical e.fault⟩
  if ts.isEmpty then return ⟨[]⟩
  else
    match ts.eat? "*" with
    | none => fail ts.position (.noStar ts.describe)
    | some ts => return ⟨← readSegments (ts.rest.length + 1) ts⟩

end Tabulate.Groq
