import Tabulate.Text.Literal
import Tabulate.Text.Utf8

/-! References in markup: `&name;` and `&#code;` stand for one character each. -/
namespace Tabulate.Markup

inductive Base
  | decimal
  | hexadecimal
deriving DecidableEq

namespace Base

def name : Base → String
  | decimal => "decimal"
  | hexadecimal => "hexadecimal"

def radix : Base → Nat
  | decimal => 10
  | hexadecimal => 16

def maxDigits : Base → Nat
  | decimal => 7
  | hexadecimal => 6

def digit? (base : Base) (c : Char) : Option Nat :=
  if c.isDigit then some (c.toNat - '0'.toNat)
  else if base = hexadecimal ∧ 'a' ≤ c ∧ c ≤ 'f' then some (c.toNat - 'a'.toNat + 10)
  else if base = hexadecimal ∧ 'A' ≤ c ∧ c ≤ 'F' then some (c.toNat - 'A'.toNat + 10)
  else none

end Base

/-- What is wrong with a reference; the numbers are the byte offsets at which its part ends. -/
inductive EscapeFault
  | unknown (first last : Nat) (name : List Char)
  | unterminated (first last : Nat)
  | null (first last : Nat)
  | noCodePoint (code : Nat)
  | tooLong (base : Base)
  | badDigit (base : Base) (found : Char)
deriving DecidableEq

def EscapeFault.message : EscapeFault → String
  | unknown first last name =>
    s!"Error while escaping character at range {first}..{last}: " ++
      s!"Unrecognized escape symbol: {Text.literal name}"
  | unterminated first last =>
    s!"Error while escaping character at range {first}..{last}: Cannot find ';' after '&'"
  | null first last =>
    s!"Error while escaping character at range {first}..{last}: Null character entity not allowed"
  | noCodePoint code => s!"'{code}' is not a valid codepoint"
  | tooLong base => s!"Cannot convert {base.name} to utf8"
  | badDigit base found => s!"'{found}' is not a valid {base.name} character"

private def readCode (base : Base) (digits : List Char) : Except EscapeFault Nat :=
  if byteCount digits > base.maxDigits then .error (.tooLong base)
  else digits.foldlM (fun code c =>
    match base.digit? c with
    | some d => .ok (code * base.radix + d)
    | none => .error (.badDigit base (Utf8.lead c))) 0

/-- The character that a reference stands for; it lies between two byte offsets. -/
def referent (first last : Nat) (name : List Char) : Except EscapeFault Char :=
  let ofCode (code : Nat) : Except EscapeFault Char :=
    if code = 0 then .error (.null first last)
    else if code.isValidChar then .ok (Char.ofNat code)
    else .error (.noCodePoint code)
  match name with
  | '#' :: 'x' :: digits => do ofCode (← readCode .hexadecimal digits)
  | '#' :: digits => do ofCode (← readCode .decimal digits)
  | ['l', 't'] => .ok '<'
  | ['g', 't'] => .ok '>'
  | ['a', 'm', 'p'] => .ok '&'
  | ['a', 'p', 'o', 's'] => .ok '\''
  | ['q', 'u', 'o', 't'] => .ok '"'
  | name => .error (.unknown (first + 1) last name)

/-- Reads from a byte offset on, outside a reference or within the one that began at an
offset, whose name so far is in reverse. -/
def unescapeFrom (size : Nat) : Nat → Option (Nat × List Char) → List Char →
    Except EscapeFault (List Char)
  | _, none, [] => .ok []
  | _, some (start, _), [] => .error (.unterminated start size)
  | offset, none, c :: rest =>
    if c = '&' then unescapeFrom size (offset + 1) (some (offset, [])) rest
    else (unescapeFrom size (offset + c.utf8Size) none rest).map (c :: ·)
  | offset, some (start, name), c :: rest =>
    if c = '&' then .error (.unterminated start size)
    else if c = ';' then do
      let found ← referent start offset name.reverse
      return found :: (← unescapeFrom size (offset + 1) none rest)
    else unescapeFrom size (offset + c.utf8Size) (some (start, c :: name)) rest

def unescape (text : List Char) : Except EscapeFault (List Char) :=
  unescapeFrom (byteCount text) 0 none text

end Tabulate.Markup
