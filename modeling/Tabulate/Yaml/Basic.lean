/-! What can be wrong with a YAML text, and a place in one. -/
namespace Tabulate.Yaml

inductive Fault
  | unexpectedCharacter
  | unexpectedTab
  | unclosedQuote
  | badEscape
  | badBlockHeader
  | badDirective
  | badTag
  | badAnchor
  | misplacedKey
  | misplacedValue
  | misplacedEntry
  | unknownAnchor
  | noContent
  | noDocument
  | severalDocuments
  | tooDeep
  | tooManyAliases
  | badScalar
deriving DecidableEq

def Fault.message : Fault → String
  | unexpectedCharacter => "unexpected character"
  | unexpectedTab => "found a tab where an indentation space is expected"
  | unclosedQuote => "unterminated quoted scalar"
  | badEscape => "invalid escape in a quoted scalar"
  | badBlockHeader => "invalid block scalar header"
  | badDirective => "invalid directive"
  | badTag => "invalid tag"
  | badAnchor => "invalid anchor or alias"
  | misplacedKey => "mapping keys are not allowed in this context"
  | misplacedValue => "mapping values are not allowed in this context"
  | misplacedEntry => "sequence entries are not allowed in this context"
  | unknownAnchor => "unknown anchor"
  | noContent => "did not find expected node content"
  | noDocument => "end of stream without a document"
  | severalDocuments => "more than one document"
  | tooDeep => "recursion limit exceeded"
  | tooManyAliases => "repetition limit exceeded"
  | badScalar => "invalid scalar"

def isBreak (c : Char) : Bool := c = '\n' || c = '\r'

def isBlank (c : Char) : Bool := c = ' ' || c = '\t'

def endsWord : Option Char → Bool
  | none => true
  | some c => isBlank c || isBreak c

def isFlowMark (c : Char) : Bool := c = ',' || c = '[' || c = ']' || c = '\x7b' || c = '\x7d'

def isNameChar (c : Char) : Bool := c.isAlphanum || c = '_' || c = '-'

/-- A place in a text: what comes next, and where it stands. -/
structure Cursor where
  rest : List Char
  index : Nat
  line : Nat
  column : Nat

namespace Cursor

def peek? (c : Cursor) : Option Char := c.rest.head?

def second? (c : Cursor) : Option Char := c.rest[1]?

/-- Passes over one character; only a line feed starts a new line. -/
def skip (c : Cursor) : Cursor :=
  match c.rest with
  | [] => c
  | x :: rest =>
    if x = '\n' then ⟨rest, c.index + 1, c.line + 1, 0⟩
    else ⟨rest, c.index + 1, c.line, c.column + 1⟩

def drop : Nat → Cursor → Cursor
  | 0, c => c
  | n + 1, c => drop n c.skip

def dropTo (c : Cursor) (rest : List Char) : Cursor := c.drop (c.rest.length - rest.length)

def splitWhile (p : Char → Bool) (c : Cursor) : List Char × Cursor :=
  let taken := c.rest.takeWhile p
  (taken, c.drop taken.length)

def skipWhile (p : Char → Bool) (c : Cursor) : Cursor := (c.splitWhile p).2

def skipBreak (c : Cursor) : Cursor :=
  match c.rest with
  | '\r' :: '\n' :: _ => c.skip.skip
  | x :: _ => if isBreak x then c.skip else c
  | [] => c

/-- Whether three characters that start or end a document stand alone at the start of a line. -/
def atMark (mark : Char) (c : Cursor) : Bool :=
  c.column == 0 && c.rest.take 3 == [mark, mark, mark] && endsWord c.rest[3]?

def atDocumentMark (c : Cursor) : Bool := c.atMark '-' || c.atMark '.'

end Cursor
end Tabulate.Yaml
