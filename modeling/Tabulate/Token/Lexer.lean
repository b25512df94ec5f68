import Tabulate.Token.Basic
import Tabulate.Number.Read
import Tabulate.Text.Utf8
import Tabulate.Unicode.Class

/-! Splitting a source text into tokens. -/
namespace Tabulate.Token

inductive LexFault
  | unexpected (c : Char)
  | unterminated
deriving DecidableEq

structure LexError where
  fault : LexFault
  position : Nat
deriving DecidableEq

def LexFault.message : LexFault → String
  | unexpected c => s!"unexpected character '{c}'"
  | unterminated => "unterminated string"

def LexError.message (e : LexError) : String := s!"{e.fault.message} at position {e.position}"

def symbols : List String :=
  ["...", "..", "==", "!=", "<=", ">=", "&&", "||", "->", "|", ",", "(", ")", "[", "]",
    "\x7b", "\x7d", ".", ":", "=", "<", ">", "+", "-", "*", "/", "%", "&", "!", "@", "^", "?", ";"]

def isWordChar (c : Char) : Bool := Unicode.isAlphanumeric c || c = '_'

/-- The characters of a name; with hyphens, one may stand before a letter or a digit. -/
def takeName (hyphens : Bool) : List Char → List Char × List Char
  | [] => ([], [])
  | c :: rest =>
    let joins := hyphens && c = '-' && (rest.head?.map Unicode.isAlphanumeric).getD false
    if isWordChar c || joins then
      let (name, rest) := takeName hyphens rest
      (c :: name, rest)
    else ([], c :: rest)

def startsDigit (text : List Char) : Bool := (text.head?.map Char.isDigit).getD false

/-- The digits after a point; a point without digits after it belongs to no number. -/
def takeFraction : List Char → List Char × List Char
  | '.' :: rest => if startsDigit rest then
      let (digits, rest) := takeDigits rest
      ('.' :: digits, rest)
    else ([], '.' :: rest)
  | text => ([], text)

/-- A power of ten; a mark without digits after it belongs to no number. -/
def takeExponent (text : List Char) : List Char × List Char :=
  match text with
  | mark :: rest =>
    if mark = 'e' ∨ mark = 'E' then
      let sign := rest.take 1 |>.filter fun c => c = '+' ∨ c = '-'
      let digits := rest.drop sign.length
      if startsDigit digits then
        let (run, rest) := takeDigits digits
        (mark :: sign ++ run, rest)
      else ([], text)
    else ([], text)
  | [] => ([], [])

def takeNumber (text : List Char) : List Char × List Char :=
  let (whole, rest) := takeDigits text
  let (fraction, rest) := takeFraction rest
  let (exponent, rest) := takeExponent rest
  (whole ++ fraction ++ exponent, rest)

def unescape : Char → Char
  | 'n' => '\n'
  | 't' => '\t'
  | 'r' => '\r'
  | c => c

/-- The text up to the closing quote; absent if there is none. -/
def takeQuoted? (quote : Char) : List Char → Option (List Char × List Char)
  | [] | ['\\'] => none
  | '\\' :: c :: rest => (takeQuoted? quote rest).map fun (text, rest) => (unescape c :: text, rest)
  | c :: rest =>
    if c = quote then some ([], rest)
    else (takeQuoted? quote rest).map fun (text, rest) => (c :: text, rest)

def quotedToken (quote : Char) (text : String) : Token :=
  if quote = '"' then .quoted text else if quote = '\'' then .singleQuoted text else .backtick text

def takeDollar : List Char → Token × List Char
  | '$' :: rest => (.dollar "$", rest)
  | rest => (.dollar (String.ofList (rest.takeWhile isWordChar)), rest.dropWhile isWordChar)

def takeSymbol? (text : List Char) : Option (Token × List Char) :=
  (symbols.find? (·.toList.isPrefixOf text)).map fun found => (.symbol found, text.drop found.length)

/-- The token that a text without space before it starts with, and the rest. -/
def first (hyphens : Bool) (c : Char) (rest : List Char) : Except LexFault (Token × List Char) :=
  let text := c :: rest
  if c.isDigit then
    let (digits, rest) := takeNumber text
    .ok (.number ((Number.read? digits).getD .nan), rest)
  else if Unicode.isLetter c || c = '_' then
    let (name, rest) := takeName hyphens text
    .ok (.ident (String.ofList name), rest)
  else if c = '"' ∨ c = '\'' ∨ c.toNat = 96 then
    match takeQuoted? c rest with
    | none => .error .unterminated
    | some (inner, rest) => .ok (quotedToken c (String.ofList inner), rest)
  else if c = '$' then .ok (takeDollar rest)
  else
    match takeSymbol? text with
    | some taken => .ok taken
    | none => .error (.unexpected c)

def lexWithin (hyphens : Bool) (size : Nat) : Nat → List Char → Except LexError (List Lexeme)
  | 0, _ | _, [] => .ok []
  | fuel + 1, c :: rest =>
    if Unicode.isBlank c then lexWithin hyphens size fuel rest
    else
      let position := size - byteCount (c :: rest)
      match first hyphens c rest with
      | .error fault => .error ⟨fault, position⟩
      | .ok (token, rest) => (lexWithin hyphens size fuel rest).map (⟨token, position⟩ :: ·)

/-- The tokens of a source text; with hyphens, names may have them inside. -/
def lex (source : String) (hyphens : Bool) : Except LexError (List Lexeme) :=
  let text := source.toList
  lexWithin hyphens (byteCount text) text.length text

def stream (source : String) (hyphens : Bool) : Except LexError Tokens := do
  return ⟨← lex source hyphens, byteCount source.toList⟩

end Tabulate.Token
