import Tabulate.Number.Shortest

/-! Tokens of the query languages, and the list of tokens that a parser reads from. -/
namespace Tabulate

inductive Token
  | ident (name : String)
  | quoted (text : String)
  | singleQuoted (text : String)
  | backtick (text : String)
  | number (n : Number)
  /-- A name after a dollar sign; the sign alone is the empty name, and twice is the name `$`. -/
  | dollar (name : String)
  | symbol (text : String)
deriving DecidableEq

def Token.describe : Token → String
  | ident name => s!"'{name}'"
  | quoted text => s!"\"{text}\""
  | singleQuoted text => s!"'{text}'"
  | backtick text => s!"`{text}`"
  | number n => n.positional
  | dollar name => s!"${name}"
  | symbol text => s!"'{text}'"

/-- A token with its byte offset in the source. -/
structure Lexeme where
  token : Token
  position : Nat
deriving DecidableEq

/-- Whether two names differ at most in the case of Latin letters. -/
def sameWord (a b : String) : Bool := a.toList.map Char.toLower == b.toList.map Char.toLower

structure Tokens where
  rest : List Lexeme
  finish : Nat

namespace Tokens

def peek? (ts : Tokens) : Option Token := ts.rest.head?.map (·.token)

def peekSecond? (ts : Tokens) : Option Token := ts.rest[1]?.map (·.token)

def tail (ts : Tokens) : Tokens := { ts with rest := ts.rest.tail }

def position (ts : Tokens) : Nat := (ts.rest.head?.map (·.position)).getD ts.finish

def isEmpty (ts : Tokens) : Bool := ts.rest.isEmpty

def startsWith (ts : Tokens) (symbol : String) : Bool := ts.peek? == some (.symbol symbol)

def eat? (ts : Tokens) (symbol : String) : Option Tokens :=
  if ts.startsWith symbol then some ts.tail else none

def startsWithWord (ts : Tokens) (word : String) : Bool :=
  match ts.peek? with
  | some (.ident name) => sameWord name word
  | _ => false

def eatWord? (ts : Tokens) (word : String) : Option Tokens :=
  if ts.startsWithWord word then some ts.tail else none

def describe (ts : Tokens) : String := (ts.peek?.map Token.describe).getD "end of input"

end Tokens
end Tabulate
