import Tabulate.Yaml.Token

/-! The tokens of a whole text, in the order in which a reader meets them. -/
namespace Tabulate.Yaml

/-- A place that a key may have begun at, if a colon follows: where it stands among the tokens
and in the text, and whether nothing but a key may stand there. -/
structure KeyPlace where
  token : Nat
  index : Nat
  line : Nat
  column : Nat
  required : Bool

/-- A text read in part: the tokens so far in reverse, the possible keys and the indentations
from the innermost outwards. -/
structure Lexing where
  cursor : Cursor
  tokens : List Token
  keyAllowed : Bool
  key : Option KeyPlace
  /-- One for each bracket that is open. -/
  outerKeys : List (Option KeyPlace)
  indent : Int
  outerIndents : List Int
  /-- The index after a quoted scalar, at which a colon needs no space. -/
  afterQuoted : Nat

namespace Lexing

def start (text : List Char) : Lexing := ⟨⟨text, 0, 0, 0⟩, [], true, none, [], -1, [], 0⟩

def inFlow (s : Lexing) : Bool := !s.outerKeys.isEmpty

def push (t : Token) (s : Lexing) : Lexing := { s with tokens := t :: s.tokens }

def insertAt (index : Nat) (t : Token) (s : Lexing) : Lexing :=
  let later := s.tokens.length - index
  { s with tokens := s.tokens.take later ++ t :: s.tokens.drop later }

def allowKey (allowed : Bool) (s : Lexing) : Lexing := { s with keyAllowed := allowed }

def pass (t : Token) (s : Lexing) : Lexing := { s.push t with cursor := s.cursor.skip }

private def skipSpaceFrom (flow : Bool) : Nat → Bool → Cursor → Bool × Cursor
  | 0, allowed, c => (allowed, c)
  | fuel + 1, allowed, c =>
    match c.peek? with
    | some x =>
      if x = ' ' || (x = '\t' && (flow || !allowed)) then skipSpaceFrom flow fuel allowed c.skip
      else if isBreak x then skipSpaceFrom flow fuel (allowed || !flow) c.skipBreak
      else if x = '#' then skipSpaceFrom flow fuel allowed (c.skipWhile (!isBreak ·))
      else (allowed, c)
    | none => (allowed, c)

/-- Passes over white space and comments; a key may stand at the start of a line. -/
def skipSpace (s : Lexing) : Lexing :=
  let (allowed, c) := skipSpaceFrom s.inFlow (s.cursor.rest.length + 1) s.keyAllowed s.cursor
  { s with keyAllowed := allowed, cursor := c }

/-- A key lies on one line, and within a limit of characters. -/
private def isStale (c : Cursor) (k : KeyPlace) : Bool := k.line < c.line || k.index + 1024 < c.index

private def dropStale (c : Cursor) : Option KeyPlace → Except Fault (Option KeyPlace)
  | none => .ok none
  | some k =>
    if isStale c k then if k.required then .error .misplacedKey else .ok none else .ok (some k)

def dropStaleKeys (s : Lexing) : Except Fault Lexing := do
  return { s with
    key := ← dropStale s.cursor s.key
    outerKeys := ← s.outerKeys.mapM (dropStale s.cursor) }

def dropKey (s : Lexing) : Except Fault Lexing :=
  if s.key.any (·.required) then .error .misplacedKey else .ok { s with key := none }

def saveKey (s : Lexing) : Except Fault Lexing := do
  if !s.keyAllowed then return s
  let c := s.cursor
  let required := s.inFlow && s.indent == (c.column : Int)
  return { ← s.dropKey with
    key := some ⟨s.tokens.length, c.index, c.line, c.column, required⟩ }

private def endBlocks (column : Int) : Int → List Int → List Token → Int × List Int × List Token
  | indent, [], tokens => (indent, [], tokens)
  | indent, outer :: rest, tokens =>
    if column < indent then endBlocks column outer rest (.blockEnd :: tokens)
    else (indent, outer :: rest, tokens)

def unroll (column : Int) (s : Lexing) : Lexing :=
  if s.inFlow then s
  else
    let (indent, outer, tokens) := endBlocks column s.indent s.outerIndents s.tokens
    { s with indent := indent, outerIndents := outer, tokens := tokens }

/-- Starts a block at a column that is indented further, in front of the token with an index. -/
def roll (column index : Nat) (t : Token) (s : Lexing) : Lexing :=
  if !s.inFlow && s.indent < (column : Int) then
    { s.insertAt index t with indent := column, outerIndents := s.indent :: s.outerIndents }
  else s

def openFlow (t : Token) (s : Lexing) : Except Fault Lexing := do
  let s ← s.saveKey
  return ({ s with key := none, outerKeys := s.key :: s.outerKeys }.allowKey true).pass t

def closeFlow (t : Token) (s : Lexing) : Except Fault Lexing := do
  let s ← s.dropKey
  let s := match s.outerKeys with
    | [] => s
    | key :: outer => { s with key := key, outerKeys := outer }
  return (s.allowKey false).pass t

def readFlowEntry (s : Lexing) : Except Fault Lexing := do
  return ((← s.dropKey).allowKey true).pass .flowEntry

def readEntry (s : Lexing) : Except Fault Lexing := do
  if s.inFlow || !s.keyAllowed then throw .misplacedEntry
  let s := s.roll s.cursor.column s.tokens.length .blockSequence
  return ((← s.dropKey).allowKey true).pass .entry

def readKey (s : Lexing) : Except Fault Lexing := do
  if !s.inFlow && !s.keyAllowed then throw .misplacedKey
  let s := s.roll s.cursor.column s.tokens.length .blockMapping
  let s ← s.dropKey
  return (s.allowKey !s.inFlow).pass .key

/-- Reads a colon. What came before it is its key, if that may be one. -/
def readValue (s : Lexing) : Except Fault Lexing :=
  match s.key with
  | some k =>
    let s := (s.insertAt k.token .key).roll k.column k.token .blockMapping
    .ok (({ s with key := none }.allowKey false).pass .value)
  | none =>
    if !s.inFlow && !s.keyAllowed then .error .misplacedValue
    else
      let s := s.roll s.cursor.column s.tokens.length .blockMapping
      .ok ((s.allowKey !s.inFlow).pass .value)

def endDocument (s : Lexing) : Except Fault Lexing := do
  return (← (s.unroll (-1)).dropKey).allowKey false

def readNodePart (read : Cursor → Except Fault (Token × Cursor)) (keyAfter : Bool) (s : Lexing) :
    Except Fault Lexing := do
  let s := (← s.saveKey).allowKey keyAfter
  let (t, c) ← read s.cursor
  return { s.push t with cursor := c }

def readQuoted (quote : Char) (s : Lexing) : Except Fault Lexing := do
  let s ← s.readNodePart
    (fun c => do
      let (text, c) ← c.readQuoted quote
      return (.scalar false text, c)) false
  return { s with afterQuoted := s.cursor.index }

def readBlock (folded : Bool) (s : Lexing) : Except Fault Lexing :=
  s.readNodePart
    (fun c => do
      let (text, c) ← c.readBlock folded s.indent
      return (.scalar false text, c)) true

def readPlain (s : Lexing) : Except Fault Lexing := do
  let s := (← s.saveKey).allowKey false
  let (text, broken, c) ← s.cursor.readPlain s.inFlow (s.indent + 1)
  return { (s.push (.scalar true text)).allowKey broken with cursor := c }

def readToken (c : Char) (s : Lexing) : Except Fault Lexing :=
  let next := s.cursor.second?
  let flow := s.inFlow
  match c with
  | '[' => s.openFlow .flowSequence
  | '\x7b' => s.openFlow .flowMapping
  | ']' => s.closeFlow .flowSequenceEnd
  | '\x7d' => s.closeFlow .flowMappingEnd
  | ',' => s.readFlowEntry
  | '*' => s.readNodePart (fun c => do
      let (name, c) ← c.readAnchor
      return (.reference name, c)) false
  | '&' => s.readNodePart (fun c => do
      let (name, c) ← c.readAnchor
      return (.anchor name, c)) false
  | '!' => s.readNodePart (fun c => do
      let (tag, c) ← c.readTag
      return (.tag tag, c)) false
  | '\'' => s.readQuoted '\''
  | '"' => s.readQuoted '"'
  | '-' => if endsWord next then s.readEntry else s.readPlain
  | '?' => if endsWord next then s.readKey else s.readPlain
  | ':' =>
    if endsWord next || (flow && (next.any isFlowMark || s.cursor.index = s.afterQuoted)) then
      s.readValue
    else s.readPlain
  | '|' => if flow then s.readPlain else s.readBlock false
  | '>' => if flow then s.readPlain else s.readBlock true
  | '%' | '@' => .error .unexpectedCharacter
  | c => if c.toNat = 96 then .error .unexpectedCharacter else s.readPlain

def step (s : Lexing) : Except Fault Lexing := do
  let s ← s.skipSpace.dropStaleKeys
  let s := s.unroll s.cursor.column
  match s.cursor.peek? with
  | none => return (← s.endDocument).push .streamEnd
  | some c =>
    if c = '%' && s.cursor.column = 0 then
      let s ← s.endDocument
      return { s.push .directive with cursor := ← s.cursor.readDirective }
    else if s.cursor.atMark '-' then
      let s ← s.endDocument
      return { s.push .documentStart with cursor := s.cursor.drop 3 }
    else if s.cursor.atMark '.' then
      let s ← s.endDocument
      return { s.push .documentEnd with cursor := s.cursor.drop 3 }
    else s.readToken c

private def run : Nat → Lexing → Except Fault (List Token)
  | 0, s => .ok s.tokens.reverse
  | fuel + 1, s => do
    let s ← s.step
    if s.tokens.head? = some .streamEnd then return s.tokens.reverse else run fuel s

end Lexing

def lex (text : List Char) : Except Fault (List Token) :=
  let text := text.takeWhile (· ≠ '\x00')
  Lexing.run (text.length + 2) (.start text)

end Tabulate.Yaml
