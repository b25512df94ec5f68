import Tabulate.Yaml.Scalar

/-! Splitting a YAML text into tokens. Indentation becomes tokens of its own, and a key without
a mark gets one when the colon after it is met. -/
namespace Tabulate.Yaml

structure Tag where
  handle : List Char
  suffix : List Char
deriving DecidableEq

inductive Token
  | directive
  | documentStart
  | documentEnd
  | streamEnd
  | blockSequence
  | blockMapping
  | blockEnd
  | entry
  | key
  | value
  | flowSequence
  | flowSequenceEnd
  | flowMapping
  | flowMappingEnd
  | flowEntry
  | reference (name : List Char)
  | anchor (name : List Char)
  | tag (tag : Tag)
  | scalar (isPlain : Bool) (text : List Char)
deriving DecidableEq

namespace Cursor

private def isUriChar (c : Char) : Bool :=
  isNameChar c || ";/?:@&=+$,.!~*'()[]%".toList.contains c

private def octet? : List Char → Option (Nat × List Char)
  | '%' :: a :: b :: rest => do
    let high ← digit? a
    let low ← digit? b
    return (16 * high + low, rest)
  | _ => none
where
  digit? (c : Char) : Option Nat :=
    if c.isDigit then some (c.toNat - '0'.toNat)
    else if 'a' ≤ c ∧ c ≤ 'f' then some (c.toNat - 'a'.toNat + 10)
    else if 'A' ≤ c ∧ c ≤ 'F' then some (c.toNat - 'A'.toNat + 10)
    else none

/-- The number of octets in a character that starts with one; zero if none does. -/
private def octetCount (first : Nat) : Nat :=
  if first < 0x80 then 1
  else if 0xc0 ≤ first && first < 0xe0 then 2
  else if 0xe0 ≤ first && first < 0xf0 then 3
  else if 0xf0 ≤ first && first < 0xf8 then 4
  else 0

private def trailingOctets : Nat → Nat → List Char → Option (Nat × List Char)
  | 0, code, text => some (code, text)
  | n + 1, code, text => do
    let (octet, rest) ← octet? text
    if 0x80 ≤ octet ∧ octet < 0xc0 then trailingOctets n (256 * code + octet) rest else none

/-- A character written as octets, whose code is made of the octets as they stand. -/
private def escaped? (text : List Char) : Option (Char × List Char) := do
  let (first, rest) ← octet? text
  let count := octetCount first
  if count = 0 then none
  else
    let (code, rest) ← trailingOctets (count - 1) first rest
    if code.isValidChar then some (Char.ofNat code, rest) else none

private def readUri : Nat → List Char → Except Fault (List Char × List Char)
  | 0, text => .ok ([], text)
  | _, [] => .ok ([], [])
  | fuel + 1, c :: rest =>
    if c = '%' then
      match escaped? (c :: rest) with
      | none => .error .badTag
      | some (found, rest) => do
        let (uri, rest) ← readUri fuel rest
        return (found :: uri, rest)
    else if isUriChar c then do
      let (uri, rest) ← readUri fuel rest
      return (c :: uri, rest)
    else .ok ([], c :: rest)

/-- The rest of a tag after a first part, which has to have one if that is empty. -/
private def readSuffix (head : List Char) (c : Cursor) : Except Fault (List Char × Cursor) := do
  let (uri, rest) ← readUri c.rest.length c.rest
  if head.isEmpty ∧ uri.isEmpty then throw .badTag
  else return (head.drop 1 ++ uri, c.dropTo rest)

private def readHandle (c : Cursor) : Except Fault (List Char × Cursor) :=
  if c.peek? ≠ some '!' then .error .badTag
  else
    let (name, c) := c.skip.splitWhile isNameChar
    if c.peek? = some '!' then .ok ('!' :: (name ++ ['!']), c.skip) else .ok ('!' :: name, c)

def readTag (c : Cursor) : Except Fault (Tag × Cursor) := do
  let (tag, c) ←
    if c.second? = some '<' then do
      let (suffix, c) ← readSuffix [] c.skip.skip
      if c.peek? = some '>' then pure (Tag.mk [] suffix, c.skip) else throw .badTag
    else do
      let (handle, c) ← readHandle c
      if 2 ≤ handle.length ∧ handle.getLast? = some '!' then
        let (suffix, c) ← readSuffix [] c
        pure (Tag.mk handle suffix, c)
      else
        let (suffix, c) ← readSuffix handle c
        pure (if suffix.isEmpty then Tag.mk [] ['!'] else Tag.mk ['!'] suffix, c)
  if endsWord c.peek? then return (tag, c) else throw .badTag

def readAnchor (c : Cursor) : Except Fault (List Char × Cursor) :=
  let (name, c) := c.skip.splitWhile isNameChar
  let ends := endsWord c.peek? || c.peek?.any "?:,]\x7d%@".toList.contains ||
    c.peek?.any (·.toNat = 96)
  if name.isEmpty || !ends then .error .badAnchor else .ok (name, c)

private def readVersionNumber (c : Cursor) : Except Fault Cursor :=
  let (digits, c) := c.splitWhile Char.isDigit
  if digits.isEmpty ∨ 9 < digits.length then .error .badDirective else .ok c

private def readArguments (name : List Char) (c : Cursor) : Except Fault Cursor := do
  let c' := c.skipWhile isBlank
  if name = "YAML".toList then
    let c ← readVersionNumber c'
    if c.peek? = some '.' then readVersionNumber c.skip else throw .badDirective
  else if name = "TAG".toList then
    let (handle, c) ← readHandle c'
    if handle ≠ ['!'] ∧ handle.getLast? ≠ some '!' then throw .badDirective
    let (_, c) ← readSuffix [] (c.skipWhile isBlank)
    if endsWord c.peek? then return c else throw .badDirective
  else return c.skipWhile (!isBreak ·)

def readDirective (c : Cursor) : Except Fault Cursor := do
  let (name, c) := c.skip.splitWhile isNameChar
  if name.isEmpty || !endsWord c.peek? then throw .badDirective
  let c := (← readArguments name c).skipWhile isBlank
  let c := if c.peek? = some '#' then c.skipWhile (!isBreak ·) else c
  if c.peek?.all isBreak then return c.skipBreak else throw .badDirective

end Cursor
end Tabulate.Yaml
