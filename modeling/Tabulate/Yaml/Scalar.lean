import Tabulate.Yaml.Basic

/-! Reading scalars as they are written: plain, in quotes, or as a block of lines. -/
namespace Tabulate.Yaml

/-- The white space between two words of a scalar: the blanks before its first line break, and
its line breaks. After an escaped line break, `joined` holds. -/
structure Gap where
  joined : Bool
  spaces : List Char
  breaks : Nat

private def countBreaks : List Char → Nat
  | [] => 0
  | '\r' :: '\n' :: rest => countBreaks rest + 1
  | c :: rest => (if isBreak c then 1 else 0) + countBreaks rest

def Gap.text (g : Gap) : List Char :=
  if g.joined then List.replicate g.breaks '\n'
  else if g.breaks = 0 then g.spaces
  else if g.breaks = 1 then [' ']
  else List.replicate (g.breaks - 1) '\n'

namespace Cursor

def splitGap (joined : Bool) (c : Cursor) : Gap × Cursor :=
  let (run, after) := c.splitWhile fun x => isBlank x || isBreak x
  (⟨joined, run.takeWhile isBlank, countBreaks run⟩, after)

/-- Whether white space has a tab to the left of an indentation, after its first line break. -/
private def hasEarlyTab (indent : Int) (broken : Bool) (column : Nat) : List Char → Bool
  | [] => false
  | c :: rest =>
    (broken && c = '\t' && (column : Int) < indent) ||
      hasEarlyTab indent (broken || isBreak c) (if c = '\n' then 0 else column + 1) rest

private def splitWord (flow : Bool) : List Char → List Char × List Char
  | [] => ([], [])
  | c :: rest =>
    let ends := isBlank c || isBreak c || (flow && isFlowMark c) ||
      (c = ':' && (endsWord rest.head? || (flow && rest.head?.any isFlowMark)))
    if ends then ([], c :: rest)
    else
      let (word, rest) := splitWord flow rest
      (c :: word, rest)

/-- Reads on after some words, with the text of the gap after them; `broken` says that it has a
line break. -/
private def plainFrom (flow : Bool) (indent : Int) : Nat → List Char → List Char → Bool → Cursor →
    Except Fault (List Char × Bool × Cursor)
  | 0, words, _, broken, c => .ok (words, broken, c)
  | fuel + 1, words, gap, broken, c =>
    if c.atDocumentMark || c.peek? = some '#' then .ok (words, broken, c)
    else
      let (word, rest) := splitWord flow c.rest
      let words := if word.isEmpty then words else words ++ gap ++ word
      let broken := broken && word.isEmpty
      let c := c.dropTo rest
      let (gap, after) := c.splitGap false
      if after.index = c.index then .ok (words, broken, c)
      else if hasEarlyTab indent false c.column (c.rest.take (after.index - c.index)) then
        .error .unexpectedTab
      else
        let broken := broken || gap.breaks ≠ 0
        if !flow && (after.column : Int) < indent then .ok (words, broken, after)
        else plainFrom flow indent fuel words gap.text broken after

/-- A plain scalar that lies at an indentation or within brackets, and whether a line break
follows it. -/
def readPlain (flow : Bool) (indent : Int) (c : Cursor) :
    Except Fault (List Char × Bool × Cursor) :=
  plainFrom flow indent (c.rest.length + 1) [] [] false c

private def hexValue? (digits : List Char) : Option Nat :=
  digits.foldlM (fun value c =>
    if c.isDigit then some (16 * value + (c.toNat - '0'.toNat))
    else if 'a' ≤ c ∧ c ≤ 'f' then some (16 * value + (c.toNat - 'a'.toNat + 10))
    else if 'A' ≤ c ∧ c ≤ 'F' then some (16 * value + (c.toNat - 'A'.toNat + 10))
    else none) 0

private def ofCode? (count : Nat) (text : List Char) : Option (Char × List Char) := do
  let digits := text.take count
  let code ← hexValue? digits
  if digits.length = count ∧ code.isValidChar then some (Char.ofNat code, text.drop count) else none

private def readEscape? : List Char → Option (Char × List Char)
  | [] => none
  | c :: rest =>
    match c with
    | '0' => some ('\x00', rest)
    | 'a' => some ('\x07', rest)
    | 'b' => some ('\x08', rest)
    | 't' | '\t' => some ('\t', rest)
    | 'n' => some ('\n', rest)
    | 'v' => some ('\x0b', rest)
    | 'f' => some ('\x0c', rest)
    | 'r' => some ('\r', rest)
    | 'e' => some ('\x1b', rest)
    | ' ' | '"' | '\'' | '\\' => some (c, rest)
    | 'N' => some ('\u0085', rest)
    | '_' => some ('\u00a0', rest)
    | 'L' => some ('\u2028', rest)
    | 'P' => some ('\u2029', rest)
    | 'x' => ofCode? 2 rest
    | 'u' => ofCode? 4 rest
    | 'U' => ofCode? 8 rest
    | _ => none

/-- The word in quotes that comes next, and whether an escaped line break ends it. -/
private def splitQuotedWord (quote : Char) : Nat → List Char →
    Except Fault (List Char × Bool × List Char)
  | 0, text => .ok ([], false, text)
  | _, [] => .ok ([], false, [])
  | fuel + 1, c :: rest =>
    if isBlank c || isBreak c then .ok ([], false, c :: rest)
    else if c = quote then
      if quote = '\'' && rest.head? = some '\'' then do
        let (word, joined, rest) ← splitQuotedWord quote fuel rest.tail
        return (c :: word, joined, rest)
      else .ok ([], false, c :: rest)
    else if c = '\\' && quote = '"' then
      match rest with
      | '\r' :: '\n' :: rest => .ok ([], true, rest)
      | rest =>
        if rest.head?.any isBreak then .ok ([], true, rest.tail)
        else
          match readEscape? rest with
          | none => .error .badEscape
          | some (found, rest) => do
            let (word, joined, rest) ← splitQuotedWord quote fuel rest
            return (found :: word, joined, rest)
    else do
      let (word, joined, rest) ← splitQuotedWord quote fuel rest
      return (c :: word, joined, rest)

private def quotedFrom (quote : Char) : Nat → List Char → Cursor → Except Fault (List Char × Cursor)
  | 0, _, _ => .error .unclosedQuote
  | fuel + 1, words, c =>
    if c.rest.isEmpty || c.atDocumentMark then .error .unclosedQuote
    else do
      let (word, joined, rest) ← splitQuotedWord quote c.rest.length c.rest
      let words := words ++ word
      let c := c.dropTo rest
      if c.peek? = some quote then return (words, c.skip)
      else
        let (gap, c) := c.splitGap joined
        quotedFrom quote fuel (words ++ gap.text) c

def readQuoted (quote : Char) (c : Cursor) : Except Fault (List Char × Cursor) :=
  quotedFrom quote (c.rest.length + 1) [] c.skip

inductive Chomping
  | clip
  | strip
  | keep
deriving DecidableEq

private def readChomping (c : Cursor) : Chomping × Cursor :=
  match c.peek? with
  | some '+' => (.keep, c.skip)
  | some '-' => (.strip, c.skip)
  | _ => (.clip, c)

private def readIncrement (c : Cursor) : Except Fault (Nat × Cursor) :=
  match c.peek? with
  | some x =>
    if x = '0' then .error .badBlockHeader
    else if x.isDigit then .ok (x.toNat - '0'.toNat, c.skip)
    else .ok (0, c)
  | none => .ok (0, c)

/-- The header of a block: chomping and indentation, in either order. -/
private def readHeader (c : Cursor) : Except Fault (Chomping × Nat × Cursor) := do
  let (chomping, c) := readChomping c
  let (increment, c) ← readIncrement c
  let (chomping, c) := if chomping = .clip ∧ increment ≠ 0 then readChomping c else (chomping, c)
  let c := c.skipWhile isBlank
  let c := if c.peek? = some '#' then c.skipWhile (!isBreak ·) else c
  if c.peek?.all isBreak then return (chomping, increment, c.skipBreak)
  else throw .badBlockHeader

/-- Passes over indentation and empty lines; counts these, and finds the greatest indentation
met while none is set. -/
private def breaksFrom (indent : Nat) : Nat → Nat → Nat → Cursor → Except Fault (Nat × Nat × Cursor)
  | 0, greatest, count, c => .ok (greatest, count, c)
  | fuel + 1, greatest, count, c =>
    let room := if indent = 0 then c.rest.length else indent - c.column
    let c := c.drop ((c.rest.take room).takeWhile (· = ' ')).length
    let greatest := max greatest c.column
    if (indent = 0 || c.column < indent) && c.peek? = some '\t' then .error .unexpectedTab
    else if c.peek?.any isBreak then breaksFrom indent fuel greatest (count + 1) c.skipBreak
    else .ok (greatest, count, c)

/-- Passes over empty lines within a block; sets the indentation if none is set. -/
private def readBreaks (outer : Int) (indent : Nat) (c : Cursor) : Except Fault (Nat × Nat × Cursor) := do
  let (greatest, count, c) ← breaksFrom indent (c.rest.length + 1) 0 0 c
  return (if indent = 0 then max (max greatest (outer + 1).toNat) 1 else indent, count, c)

/-- The lines of a block read so far: their text, whether a line break comes after it, the
number of empty lines after that, and whether the last line began with a blank. -/
private structure Block where
  text : List Char
  hasBreak : Bool
  empty : Nat
  wasIndented : Bool

/-- Adds a line; folded, a line break between two lines without extra indentation is a space. -/
private def Block.addLine (folded : Bool) (b : Block) (line : List Char) : Block :=
  let indented := line.head?.any isBlank
  let joint :=
    if folded && b.hasBreak && !b.wasIndented && !indented then
      if b.empty = 0 then [' '] else []
    else if b.hasBreak then ['\n'] else []
  ⟨b.text ++ joint ++ List.replicate b.empty '\n' ++ line, false, 0, indented⟩

private def blockFrom (folded : Bool) (outer : Int) (indent : Nat) : Nat → Block → Cursor →
    Except Fault (Block × Cursor)
  | 0, b, c => .ok (b, c)
  | fuel + 1, b, c =>
    if c.column ≠ indent || c.rest.isEmpty then .ok (b, c)
    else
      let (line, c) := c.splitWhile (!isBreak ·)
      let b := b.addLine folded line
      if c.rest.isEmpty then .ok (b, c)
      else do
        let (_, empty, c) ← readBreaks outer indent c.skipBreak
        blockFrom folded outer indent fuel { b with hasBreak := true, empty := empty } c

def readBlock (folded : Bool) (outer : Int) (c : Cursor) : Except Fault (List Char × Cursor) := do
  let (chomping, increment, c) ← readHeader c.skip
  let start := if increment = 0 then 0 else (max outer 0).toNat + increment
  let (indent, empty, c) ← readBreaks outer start c
  let (b, c) ← blockFrom folded outer indent (c.rest.length + 1) ⟨[], false, empty, false⟩ c
  let last := if b.hasBreak && chomping ≠ .strip then ['\n'] else []
  let tail := if chomping = .keep then List.replicate b.empty '\n' else []
  return (b.text ++ last ++ tail, c)

end Cursor
end Tabulate.Yaml
