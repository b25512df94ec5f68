import Tabulate.Json.Tree
import Tabulate.Number.Read
import Tabulate.Text.Utf8

/-! Reading JSON text. A fault carries the number of bytes read when it shows, which fixes
its line, its column and its offset. -/
namespace Tabulate
namespace Json

inductive Fault
  | unfinishedList
  | unfinishedObject
  | unfinishedString
  | unfinishedValue
  | expectedColon
  | expectedListEnd
  | expectedObjectEnd
  | expectedWord
  | expectedValue
  | invalidEscape
  | invalidNumber
  | numberOutOfRange
  | controlCharacter
  | keyNotString
  | loneSurrogate
  | trailingComma
  | trailingCharacters
  | unfinishedHexEscape
  | tooDeep
deriving DecidableEq

def Fault.message : Fault → String
  | unfinishedList => "EOF while parsing a list"
  | unfinishedObject => "EOF while parsing an object"
  | unfinishedString => "EOF while parsing a string"
  | unfinishedValue => "EOF while parsing a value"
  | expectedColon => "expected `:`"
  | expectedListEnd => "expected `,` or `]`"
  | expectedObjectEnd => "expected `,` or `\x7d`"
  | expectedWord => "expected ident"
  | expectedValue => "expected value"
  | invalidEscape => "invalid escape"
  | invalidNumber => "invalid number"
  | numberOutOfRange => "number out of range"
  | controlCharacter => "control character (\\u0000-\\u001F) found while parsing a string"
  | keyNotString => "key must be a string"
  | loneSurrogate => "lone leading surrogate in hex escape"
  | trailingComma => "trailing comma"
  | trailingCharacters => "trailing characters"
  | unfinishedHexEscape => "unexpected end of hex escape"
  | tooDeep => "recursion limit exceeded"

/-- A fault and the number of bytes read when it shows. -/
structure ReadError where
  fault : Fault
  bytesRead : Nat
deriving DecidableEq

/-- What is left of a text, and the number of bytes before it. -/
structure Cursor where
  rest : List Char
  index : Nat

namespace Cursor

def failAtNext {α : Type} (c : Cursor) (fault : Fault) : Except ReadError α :=
  .error ⟨fault, if c.rest.isEmpty then c.index else c.index + 1⟩

def fail {α : Type} (c : Cursor) (fault : Fault) : Except ReadError α :=
  .error ⟨fault, c.index⟩

def skipFrom : List Char → Nat → Cursor
  | [], index => ⟨[], index⟩
  | c :: rest, index =>
    if c = ' ' ∨ c = '\n' ∨ c = '\t' ∨ c = '\r' then
      skipFrom rest (index + 1)
    else ⟨c :: rest, index⟩

def skipSpace (c : Cursor) : Cursor := skipFrom c.rest c.index

def tail (c : Cursor) : Cursor :=
  match c.rest with
  | [] => c
  | x :: rest => ⟨rest, c.index + x.utf8Size⟩

end Cursor

def readWord : List Char → Cursor → Except ReadError Cursor
  | [], c => .ok c
  | expected :: more, c =>
    match c.rest with
    | [] => c.fail .unfinishedValue
    | x :: rest =>
      if x = expected then readWord more ⟨rest, c.index + 1⟩
      else .error ⟨.expectedWord, c.index + 1⟩

def hexValue? (c : Char) : Option Nat :=
  if '0' ≤ c ∧ c ≤ '9' then some (c.toNat - '0'.toNat)
  else if 'a' ≤ c ∧ c ≤ 'f' then some (c.toNat - 'a'.toNat + 10)
  else if 'A' ≤ c ∧ c ≤ 'F' then some (c.toNat - 'A'.toNat + 10)
  else none

def hexFour? : List Char → Option (Nat × List Char)
  | a :: b :: c :: d :: rest => do
    return (((← hexValue? a) * 16 + (← hexValue? b)) * 256
      + ((← hexValue? c) * 16 + (← hexValue? d)), rest)
  | _ => none

def readHex (c : Cursor) : Except ReadError (Nat × Cursor) :=
  match hexFour? c.rest with
  | some (value, rest) => .ok (value, ⟨rest, c.index + 4⟩)
  | none =>
    let left := byteCount c.rest
    if left < 4 then .error ⟨.unfinishedString, c.index + left⟩
    else .error ⟨.invalidEscape, c.index + 4⟩

def expectPair (expected : Char) (c : Cursor) : Except ReadError Cursor :=
  match c.rest with
  | [] => c.fail .unfinishedString
  | x :: rest =>
    if x = expected then .ok ⟨rest, c.index + 1⟩ else .error ⟨.unfinishedHexEscape, c.index + 1⟩

def readUnicode (c : Cursor) : Except ReadError (Char × Cursor) := do
  let (lead, c) ← readHex c
  if 0xdc00 ≤ lead && lead ≤ 0xdfff then c.fail .loneSurrogate
  else if lead < 0xd800 || 0xdbff < lead then return (Char.ofNat lead, c)
  else
    let c ← expectPair '\\' c
    let c ← expectPair 'u' c
    let (trail, c) ← readHex c
    if trail < 0xdc00 || 0xdfff < trail then c.fail .loneSurrogate
    else return (Char.ofNat ((lead - 0xd800) * 1024 + (trail - 0xdc00) + 0x10000), c)

def readEscape (c : Cursor) : Except ReadError (Char × Cursor) :=
  match c.rest with
  | [] => c.fail .unfinishedString
  | '"' :: rest => .ok ('"', ⟨rest, c.index + 1⟩)
  | '\\' :: rest => .ok ('\\', ⟨rest, c.index + 1⟩)
  | '/' :: rest => .ok ('/', ⟨rest, c.index + 1⟩)
  | 'b' :: rest => .ok (Char.ofNat 8, ⟨rest, c.index + 1⟩)
  | 'f' :: rest => .ok (Char.ofNat 12, ⟨rest, c.index + 1⟩)
  | 'n' :: rest => .ok ('\n', ⟨rest, c.index + 1⟩)
  | 'r' :: rest => .ok ('\r', ⟨rest, c.index + 1⟩)
  | 't' :: rest => .ok ('\t', ⟨rest, c.index + 1⟩)
  | 'u' :: rest => readUnicode ⟨rest, c.index + 1⟩
  | _ :: _ => .error ⟨.invalidEscape, c.index + 1⟩

def readChars : Nat → Cursor → Except ReadError (List Char × Cursor)
  | 0, c => c.fail .unfinishedString
  | fuel + 1, c =>
    match c.rest with
    | [] => c.fail .unfinishedString
    | '"' :: rest => .ok ([], ⟨rest, c.index + 1⟩)
    | '\\' :: rest => do
      let (x, c) ← readEscape ⟨rest, c.index + 1⟩
      let (more, c) ← readChars fuel c
      return (x :: more, c)
    | x :: rest =>
      if x.toNat < 32 then .error ⟨.controlCharacter, c.index + 1⟩
      else do
        let (more, c) ← readChars fuel ⟨rest, c.index + x.utf8Size⟩
        return (x :: more, c)

def readString (c : Cursor) : Except ReadError (String × Cursor) := do
  let (chars, c) ← readChars (c.rest.length + 1) c
  return (String.ofList chars, c)

/-- The largest significand that is kept: further digits only move the decimal point. -/
def maxSignificand : Nat := twoTo 64 - 1

def maxExponent : Nat := twoTo 31 - 1

/-- A number scaled by a power of ten in steps of at most `10 ^ 308`, each rounded;
absent if it grows beyond the finite numbers. -/
def scale (n : Number) : Nat → Int → Option Number
  | 0, _ => some 0
  | fuel + 1, exponent =>
    if exponent.natAbs ≤ 308 then
      let power := Number.ofDecimal false 1 exponent.natAbs
      if exponent ≥ 0 then
        let scaled := n.mul power
        if scaled.isFinite then some scaled else none
      else some (n.div power)
    else if n.same 0 then some n
    else if exponent ≥ 0 then none
    else scale (n.div (Number.ofDecimal false 1 308)) fuel (exponent + 308)

def finish (negative : Bool) (significand : Nat) (exponent : Int) (c : Cursor) :
    Except ReadError (Tree × Cursor) :=
  match scale (Number.ofNat significand) 8 exponent with
  | some n => .ok (.float (if negative then n.neg else n), c)
  | none => c.fail .numberOutOfRange

/-- Digits appended to a significand as long as it stays within the bound, the number of
digits taken, and whether a digit was too much. -/
def takeBounded (bound : Nat) : Nat → List Char → Nat × Nat × Bool × List Char
  | value, c :: rest =>
    if c.isDigit then
      let next := value * 10 + (c.toNat - '0'.toNat)
      if bound < next then (value, 0, true, c :: rest)
      else
        let (value, count, full, rest) := takeBounded bound next rest
        (value, count + 1, full, rest)
    else (value, 0, false, c :: rest)
  | value, [] => (value, 0, false, [])

/-- A sign that may stand before the digits of an exponent, and whether it is a minus sign. -/
def takeSign (c : Cursor) : Bool × Cursor :=
  match c.rest with
  | '+' :: rest => (false, ⟨rest, c.index + 1⟩)
  | '-' :: rest => (true, ⟨rest, c.index + 1⟩)
  | _ => (false, c)

def readExponent (negative : Bool) (significand : Nat) (start : Int) (c : Cursor) :
    Except ReadError (Tree × Cursor) :=
  let (below, c) := takeSign c
  match c.rest with
  | [] => c.fail .unfinishedValue
  | first :: _ =>
    if !first.isDigit then .error ⟨.invalidNumber, c.index + 1⟩
    else
      let (value, count, full, rest) := takeBounded maxExponent 0 c.rest
      if full then
        if significand ≠ 0 ∧ !below then .error ⟨.numberOutOfRange, c.index + count + 1⟩
        else
          let (digits, rest) := takeDigits rest
          .ok (.float (Number.zero negative), ⟨rest, c.index + count + digits.length⟩)
      else
        finish negative significand (if below then start - value else start + value)
          ⟨rest, c.index + count⟩

def readTail (negative : Bool) (significand : Nat) (exponent : Int) (c : Cursor) :
    Except ReadError (Tree × Cursor) :=
  match c.rest with
  | 'e' :: rest | 'E' :: rest => readExponent negative significand exponent ⟨rest, c.index + 1⟩
  | _ => finish negative significand exponent c

def readFraction (negative : Bool) (significand : Nat) (exponent : Int) (c : Cursor) :
    Except ReadError (Tree × Cursor) :=
  let (value, count, full, rest) := takeBounded maxSignificand significand c.rest
  if full then
    let (digits, rest) := takeDigits rest
    readTail negative value (exponent - count) ⟨rest, c.index + count + digits.length⟩
  else if count = 0 then
    c.failAtNext (if c.rest.isEmpty then .unfinishedValue else .invalidNumber)
  else readTail negative value (exponent - count) ⟨rest, c.index + count⟩

/-- A whole number of 64 bits; zero with a sign and greater ones are of the other kind. -/
def ofWhole (negative : Bool) (value : Nat) : Tree :=
  if !negative then .integer value
  else if value = 0 ∨ twoTo 63 < value then .float (Number.ofNat value).neg
  else .integer (-(value : Int))

def readNumber (negative : Bool) (c : Cursor) : Except ReadError (Tree × Cursor) :=
  match c.rest with
  | [] => c.fail .unfinishedValue
  | first :: rest =>
    if !first.isDigit then .error ⟨.invalidNumber, c.index + 1⟩
    else if first = '0' ∧ (rest.head?.map Char.isDigit).getD false then
      .error ⟨.invalidNumber, c.index + 2⟩
    else
      let (value, count, full, rest) :=
        if first = '0' then (0, 1, false, rest) else takeBounded maxSignificand 0 c.rest
      let (digits, rest) := if full then takeDigits rest else ([], rest)
      let c : Cursor := ⟨rest, c.index + count + digits.length⟩
      match rest with
      | '.' :: rest => readFraction negative value digits.length ⟨rest, c.index + 1⟩
      | 'e' :: rest | 'E' :: rest => readExponent negative value digits.length ⟨rest, c.index + 1⟩
      | _ =>
        if full then finish negative value digits.length c
        else .ok (ofWhole negative value, c)

mutual

def readValue : Nat → Nat → Cursor → Except ReadError (Tree × Cursor)
  | 0, _, c => c.failAtNext .unfinishedValue
  | fuel + 1, depth, c => do
    let c := c.skipSpace
    match c.rest with
    | [] => c.failAtNext .unfinishedValue
    | 'n' :: rest => return (.null, ← readWord "ull".toList ⟨rest, c.index + 1⟩)
    | 't' :: rest => return (.bool true, ← readWord "rue".toList ⟨rest, c.index + 1⟩)
    | 'f' :: rest => return (.bool false, ← readWord "alse".toList ⟨rest, c.index + 1⟩)
    | '"' :: rest =>
      let (s, c) ← readString ⟨rest, c.index + 1⟩
      return (.string s, c)
    | '-' :: rest =>
      readNumber true ⟨rest, c.index + 1⟩
    | '[' :: rest =>
      match depth with
      | 0 => c.failAtNext .tooDeep
      | depth + 1 =>
        let (items, c) ← readItems fuel depth ⟨rest, c.index + 1⟩
        return (.array items, c)
    | '\x7b' :: rest =>
      match depth with
      | 0 => c.failAtNext .tooDeep
      | depth + 1 =>
        let (pairs, c) ← readPairs fuel depth ⟨rest, c.index + 1⟩
        return (.object pairs, c)
    | first :: _ =>
      if first.isDigit then readNumber false c
      else c.failAtNext .expectedValue

def readItems : Nat → Nat → Cursor → Except ReadError (List Tree × Cursor)
  | 0, _, c => c.failAtNext .unfinishedList
  | fuel + 1, depth, c => do
    let c := c.skipSpace
    match c.rest with
    | [] => c.failAtNext .unfinishedList
    | ']' :: rest => return ([], ⟨rest, c.index + 1⟩)
    | _ =>
      let (item, c) ← readValue fuel depth c
      let (more, c) ← readMoreItems fuel depth c
      return (item :: more, c)

def readMoreItems : Nat → Nat → Cursor → Except ReadError (List Tree × Cursor)
  | 0, _, c => c.failAtNext .unfinishedList
  | fuel + 1, depth, c => do
    let c := c.skipSpace
    match c.rest with
    | [] => c.failAtNext .unfinishedList
    | ']' :: rest => return ([], ⟨rest, c.index + 1⟩)
    | ',' :: rest =>
      let c := Cursor.skipSpace ⟨rest, c.index + 1⟩
      match c.rest with
      | [] => c.failAtNext .unfinishedValue
      | ']' :: _ => c.failAtNext .trailingComma
      | _ =>
        let (item, c) ← readValue fuel depth c
        let (more, c) ← readMoreItems fuel depth c
        return (item :: more, c)
    | _ => c.failAtNext .expectedListEnd

def readPairs : Nat → Nat → Cursor → Except ReadError (List (String × Tree) × Cursor)
  | 0, _, c => c.failAtNext .unfinishedObject
  | fuel + 1, depth, c => do
    let c := c.skipSpace
    match c.rest with
    | [] => c.failAtNext .unfinishedObject
    | '\x7d' :: rest => return ([], ⟨rest, c.index + 1⟩)
    | '"' :: rest => readPair fuel depth ⟨rest, c.index + 1⟩
    | _ => c.failAtNext .keyNotString

def readPair : Nat → Nat → Cursor → Except ReadError (List (String × Tree) × Cursor)
  | 0, _, c => c.failAtNext .unfinishedObject
  | fuel + 1, depth, c => do
    let (key, c) ← readString c
    let c := c.skipSpace
    match c.rest with
    | [] => c.failAtNext .unfinishedObject
    | ':' :: rest =>
      let (value, c) ← readValue fuel depth ⟨rest, c.index + 1⟩
      let (more, c) ← readMorePairs fuel depth c
      return ((key, value) :: more, c)
    | _ => c.failAtNext .expectedColon

def readMorePairs : Nat → Nat → Cursor → Except ReadError (List (String × Tree) × Cursor)
  | 0, _, c => c.failAtNext .unfinishedObject
  | fuel + 1, depth, c => do
    let c := c.skipSpace
    match c.rest with
    | [] => c.failAtNext .unfinishedObject
    | '\x7d' :: rest => return ([], ⟨rest, c.index + 1⟩)
    | ',' :: rest =>
      let c := Cursor.skipSpace ⟨rest, c.index + 1⟩
      match c.rest with
      | [] => c.failAtNext .unfinishedValue
      | '"' :: rest => readPair fuel depth ⟨rest, c.index + 1⟩
      | '\x7d' :: _ => c.failAtNext .trailingComma
      | _ => c.failAtNext .keyNotString
    | _ => c.failAtNext .expectedObjectEnd

end

def maxDepth : Nat := 127

def readWithin (depth : Nat) (text : List Char) : Except ReadError Tree := do
  let (value, c) ← readValue (3 * text.length + 3) depth ⟨text, 0⟩
  let c := c.skipSpace
  if c.rest.isEmpty then return value else c.failAtNext .trailingCharacters

/-- The line, from one, and the column of a byte index: the bytes after the last line feed. -/
def lineColumn : List Char → Nat → Nat × Nat := go 1 0
where
  go (line column : Nat) : List Char → Nat → Nat × Nat
    | _, 0 | [], _ => (line, column)
    | c :: rest, index =>
      if index < c.utf8Size then (line, column + index)
      else if c = '\n' then go (line + 1) 0 rest (index - 1)
      else go line (column + c.utf8Size) rest (index - c.utf8Size)

def linesSize : Nat → List Char → Nat
  | 0, _ | _, [] => 0
  | lines + 1, c :: rest =>
    c.utf8Size + linesSize (if c = '\n' then lines else lines + 1) rest

/-- The byte offset of a line and a column, both from one. -/
def byteOffset (text : List Char) (line column : Nat) : Nat :=
  if line = 0 then 0
  else min (linesSize (line - 1) text + (column - 1)) (byteCount text)

structure SyntaxError where
  fault : Fault
  line : Nat
  column : Nat
  offset : Nat
deriving DecidableEq

def SyntaxError.message (e : SyntaxError) : String :=
  s!"{e.fault.message} at line {e.line} column {e.column}"

def ReadError.locate (text : List Char) (e : ReadError) : SyntaxError :=
  let (line, column) := lineColumn text e.bytesRead
  ⟨e.fault, line, column, byteOffset text line column⟩

def Tree.read (text : String) : Except SyntaxError Tree :=
  (readWithin maxDepth text.toList).mapError (·.locate text.toList)

def read (text : String) : Except SyntaxError Value := do return (← Tree.read text).toValue

end Json
end Tabulate
