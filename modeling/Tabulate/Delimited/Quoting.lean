import Tabulate.Delimited.Record
import Tabulate.Text.Utf8

/-! Checking the quotes of a record: a quote opens or closes a whole field. -/
namespace Tabulate.Delimited

inductive QuotingFault
  /-- A closing quote of a field, and the byte after it. -/
  | closing (field : Nat) (found : Char)
  | opening (field : Nat)
  | unterminated (field : Nat)
deriving DecidableEq

def QuotingFault.message : QuotingFault → String
  | closing field found =>
    s!"invalid closing quote in field {field}: found '{found}' instead of delimiter"
  | opening field =>
    s!"invalid opening quote in field {field}: quote found inside an unquoted field"
  | unterminated field => s!"unterminated quoted field {field}"

/-- Drops the blank lines and comments ahead of a record, if a line feed ends them. -/
def dropAhead (comment : Option Char) : Nat → List Char → List Char
  | 0, raw => raw
  | fuel + 1, raw =>
    let line := raw.takeWhile (· ≠ '\n')
    match raw.dropWhile (· ≠ '\n') with
    | [] => raw
    | _ :: rest =>
      let isBlank := line.all (· = '\r')
      let isComment := comment.any fun c => (line ++ ['\n']).head? = some c
      if isBlank || isComment then dropAhead comment fuel rest else raw

mutual

def checkBare (d : Dialect) (field : Nat) (atStart : Bool) : List Char → Except QuotingFault Unit
  | [] => .ok ()
  | c :: rest =>
    if c = d.quote then
      if atStart then checkQuoted d field rest else .error (.opening field)
    else if c = d.delimiter then checkBare d (field + 1) true rest
    else if c = '\n' ∨ c = '\r' then .ok ()
    else checkBare d field false rest

def checkQuoted (d : Dialect) (field : Nat) : List Char → Except QuotingFault Unit
  | [] => .error (.unterminated field)
  | [c] => if c = d.quote then .ok () else .error (.unterminated field)
  | c :: next :: rest =>
    if c = d.quote then
      if next = d.quote then checkQuoted d field rest
      else if next = d.delimiter ∨ next = '\n' ∨ next = '\r' then checkBare d field false (next :: rest)
      else .error (.closing field (Utf8.lead next))
    else checkQuoted d field (next :: rest)

end

def checkQuoting (d : Dialect) (raw : List Char) : Except QuotingFault Unit :=
  checkBare d 0 true (dropAhead d.comment raw.length raw)

end Tabulate.Delimited
