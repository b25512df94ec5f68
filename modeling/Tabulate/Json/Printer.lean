import Tabulate.Json.Tree

/-! JSON documents as text: on one line, or indented by two spaces a level. -/
namespace Tabulate
namespace Json

def hexPair (n : Nat) : List Char := [Nat.digitChar (n / 16), Nat.digitChar (n % 16)]

/-- A character as it stands between quotes: quotes, backslashes and controls are escaped. -/
def escape (c : Char) : List Char :=
  if c = '"' then ['\\', '"']
  else if c = '\\' then ['\\', '\\']
  else if c = '\n' then ['\\', 'n']
  else if c = '\r' then ['\\', 'r']
  else if c = '\t' then ['\\', 't']
  else if c.toNat = 8 then ['\\', 'b']
  else if c.toNat = 12 then ['\\', 'f']
  else if c.toNat < 32 then '\\' :: 'u' :: '0' :: '0' :: hexPair c.toNat
  else [c]

def quoted (text : String) : List Char := '"' :: (text.toList.flatMap escape ++ ['"'])

mutual

def compact : Tree → List Char
  | .null => "null".toList
  | .bool b => (if b then "true" else "false").toList
  | .integer n => (toString n).toList
  | .float n => n.floatText.toList
  | .string s => quoted s
  | .array items => '[' :: (compactItems items ++ [']'])
  | .object fields => '\x7b' :: (compactFields fields ++ ['\x7d'])

def compactItems : List Tree → List Char
  | [] => []
  | [item] => compact item
  | item :: more => compact item ++ ',' :: compactItems more

def compactFields : List (String × Tree) → List Char
  | [] => []
  | [(key, value)] => quoted key ++ ':' :: compact value
  | (key, value) :: more => quoted key ++ ':' :: (compact value ++ ',' :: compactFields more)

end

def newLine (level : Nat) : List Char := '\n' :: List.replicate (2 * level) ' '

mutual

def prettyAt (level : Nat) : Tree → List Char
  | .array [] => ['[', ']']
  | .array items => '[' :: (prettyItems (level + 1) items ++ newLine level ++ [']'])
  | .object [] => ['\x7b', '\x7d']
  | .object fields => '\x7b' :: (prettyFields (level + 1) fields ++ newLine level ++ ['\x7d'])
  | .null => "null".toList
  | .bool b => (if b then "true" else "false").toList
  | .integer n => (toString n).toList
  | .float n => n.floatText.toList
  | .string s => quoted s

def prettyItems (level : Nat) : List Tree → List Char
  | [] => []
  | [item] => newLine level ++ prettyAt level item
  | item :: more => newLine level ++ prettyAt level item ++ ',' :: prettyItems level more

def prettyFields (level : Nat) : List (String × Tree) → List Char
  | [] => []
  | [(key, value)] => newLine level ++ quoted key ++ ':' :: ' ' :: prettyAt level value
  | (key, value) :: more =>
    newLine level ++ quoted key ++ ':' :: ' ' :: prettyAt level value ++ ',' :: prettyFields level more

end

def Tree.text (t : Tree) : String := String.ofList (compact t)

def Tree.pretty (t : Tree) : String := String.ofList (prettyAt 0 t)

end Json

namespace Value

def json (v : Value) : String := (Json.Tree.ofValue v).text

def prettyJson (v : Value) : String := (Json.Tree.ofValue v).pretty

/-- The text of a value; arrays and objects are written as JSON. -/
def text : Value → String
  | null => ""
  | bool b => if b then "true" else "false"
  | number n => n.text
  | string s => s
  | array items => (array items).json
  | object fields => (object fields).json

/-- The text that values of one group have in common. -/
def groupKey (v : Value) : String := v.json

end Value
end Tabulate
