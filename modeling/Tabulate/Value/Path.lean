import Tabulate.Value.Basic
import Tabulate.Unicode.Case

/-! Paths into values, such as `data.items[0].name`. -/
namespace Tabulate

inductive PathStep
  | key (name : String)
  | index (position : Nat)
deriving DecidableEq

/-- A run of decimal digits with an optional plus sign, below `2 ^ 64`. -/
def readIndex? (text : List Char) : Option Nat :=
  let digits := match text with
    | '+' :: rest => rest
    | rest => rest
  let value := digits.foldl (fun value c => value * 10 + (c.toNat - '0'.toNat)) 0
  if digits.isEmpty || !digits.all Char.isDigit || twoTo 64 ≤ value then none else some value

namespace PathStep

def unquote? (quote : Char) : List Char → Option (List Char)
  | first :: rest =>
    if first = quote ∧ rest.getLast? = some quote then some rest.dropLast else none
  | [] => none

/-- The step that a pair of brackets holds: a quoted key, an index or a bare key. -/
def ofBrackets? (inner : List Char) : Option PathStep :=
  let inner := Unicode.trim inner
  match (unquote? '\'' inner).or (unquote? '"' inner) with
  | some name => some (key (String.ofList name))
  | none =>
    match readIndex? inner with
    | some position => some (index position)
    | none => if inner.isEmpty then none else some (key (String.ofList inner))

end PathStep

abbrev Path := List PathStep

namespace Path

def flush (reversed : List Char) : Path :=
  if reversed.isEmpty then [] else [.key (String.ofList reversed.reverse)]

/-- Splits at points and brackets. The key read so far is kept in reverse; the second
argument holds the text within open brackets, in reverse. -/
def split (current : List Char) : Option (List Char) → List Char → Path
  | none, [] => flush current
  | some inner, [] => (PathStep.ofBrackets? inner.reverse).toList
  | none, c :: rest =>
    if c = '.' then flush current ++ split [] none rest
    else if c = '[' then flush current ++ split [] (some []) rest
    else split (c :: current) none rest
  | some inner, c :: rest =>
    if c = ']' then (PathStep.ofBrackets? inner.reverse).toList ++ split [] none rest
    else split current (some (c :: inner)) rest

def withoutRoot : List Char → List Char
  | '$' :: '.' :: rest => rest
  | '$' :: rest => rest
  | text => text

/-- Reads a path; every text is one. -/
def ofText (text : String) : Path := split [] none (withoutRoot (Unicode.trim text.toList))

end Path

namespace Value

/-- Takes one step: keys of arrays and indices of objects are read as each other. -/
def step? : Value → PathStep → Option Value
  | object fields, .key name => Fields.get? fields name
  | object fields, .index position => Fields.get? fields (toString position)
  | array items, .index position => items[position]?
  | array items, .key name => do items[← readIndex? name.toList]?
  | _, _ => none

def at? (value : Value) (path : Path) : Option Value := path.foldlM step? value

def resolve (value : Value) (selector : String) : Value :=
  (value.at? (Path.ofText selector)).getD null

end Value
end Tabulate
