import Tabulate.Json.Printer
import Tabulate.Number.Read
import Tabulate.Yaml.Node

/-! What the nodes of a YAML document stand for. -/
namespace Tabulate.Yaml

inductive Datum
  | null
  | bool (value : Bool)
  | integer (value : Int)
  | float (value : Number)
  | text (value : String)
  | sequence (items : List Datum)
  | mapping (pairs : List (Datum × Datum))

private def splitSign : List Char → Option Char × List Char
  | '+' :: rest => (some '+', rest)
  | '-' :: rest => (some '-', rest)
  | text => (none, text)

private def readDigits? (radix : Nat) (digits : List Char) : Option Nat :=
  if digits.isEmpty then none
  else digits.foldlM (fun value c =>
    let digit :=
      if c.isDigit then c.toNat - '0'.toNat
      else if 'a' ≤ c ∧ c ≤ 'z' then c.toNat - 'a'.toNat + 10
      else if 'A' ≤ c ∧ c ≤ 'Z' then c.toNat - 'A'.toNat + 10
      else radix
    if digit < radix then some (radix * value + digit) else none) 0

/-- A decimal with a zero in front is a text. -/
private def hasLeadingZero : List Char → Bool
  | '0' :: c :: rest => (c :: rest).all Char.isDigit
  | _ => false

private def radix? : Char → Option Nat
  | 'x' => some 16
  | 'o' => some 8
  | 'b' => some 2
  | _ => none

/-- The whole number that a plain scalar states with its base, if it fits into 64 bits. A plus
sign may stand in front of the base and again in front of the digits. -/
private def readBased? (text : List Char) : Option Int := do
  let (sign, rest) := splitSign text
  match rest with
  | '0' :: letter :: digits =>
    let radix ← radix? letter
    if sign = some '-' then
      let n := -((← readDigits? radix digits) : Int)
      if Word.isSigned 64 n then some n else none
    else
      let digits := if digits.head? = some '+' then digits.tail else digits
      let n : Int := ← readDigits? radix digits
      if Word.isUnsigned 64 n then some n else none
  | _ => none

private def readDecimal? (text : List Char) : Option Int :=
  let (sign, digits) := splitSign text
  if hasLeadingZero digits then none
  else (readDigits? 10 digits).map fun n => if sign = some '-' then -(n : Int) else n

private def isOneOf (words : List String) (text : List Char) : Bool := words.any (·.toList = text)

/-- The number with a fraction, or the infinity, that a plain scalar states. Plus signs in front
of an infinity count for nothing. -/
private def readFloat? (text : List Char) : Option Number :=
  let infinities := [".inf", ".Inf", ".INF"]
  let (sign, rest) := splitSign text
  if isOneOf infinities (text.dropWhile (· = '+')) then some (.infinite false)
  else if sign = some '-' ∧ isOneOf infinities rest then some (.infinite true)
  else if isOneOf [".nan", ".NaN", ".NAN"] text then some .nan
  else if (splitSign rest).1.isSome ∨ hasLeadingZero rest then none
  else (Number.read? text).filter Number.isFinite

/-- The datum of a whole number. It has to fit into 64 bits; only beyond 128 bits is it read
as a number of another kind. -/
private def ofInteger? (n : Int) : Option (Except Fault Datum) :=
  if Word.isSigned 64 n ∨ Word.isUnsigned 64 n then some (.ok (.integer n))
  else if Word.isSigned 128 n ∨ Word.isUnsigned 128 n then some (.error .badScalar)
  else none

private def ofPlain (text : List Char) : Except Fault Datum :=
  let string := String.ofList text
  if string = "~" ∨ string = "null" then .ok .null
  else if string = "true" then .ok (.bool true)
  else if string = "false" then .ok (.bool false)
  else
    match (readBased? text).map (.ok ∘ .integer) <|> (readDecimal? text).bind ofInteger? with
    | some datum => datum
    | none => .ok (((readFloat? text).map Datum.float).getD (.text string))

private def readTagged? (text : List Char) : Option Int :=
  let (sign, digits) := splitSign text
  (readDigits? 10 digits).bind fun n =>
    let n := if sign = some '-' then -(n : Int) else n
    if Word.isSigned 64 n then some n else none

private def orFault (d : Option Datum) : Except Fault Datum :=
  match d with
  | some d => .ok d
  | none => .error .badScalar

/-- What a scalar stands for. Only a plain one is more than a text, unless a tag says so. -/
def Datum.ofScalar (isPlain : Bool) (tag : Option Tag) (text : List Char) : Except Fault Datum :=
  let string := String.ofList text
  match tag with
  | some ⟨['!', '!'], suffix⟩ =>
    match String.ofList suffix with
    | "bool" =>
      orFault (if string = "true" then some (.bool true)
        else if string = "false" then some (.bool false) else none)
    | "int" => orFault ((readTagged? text).map .integer)
    | "float" => orFault ((Number.read? text).map .float)
    | "null" => orFault (if string = "~" ∨ string = "null" then some .null else none)
    | _ => .ok (.text string)
  | some _ => .ok (.text string)
  | none => if isPlain then ofPlain text else .ok (.text string)

namespace Datum

mutual

/-- Whether two data are the same key. The order of the pairs of a mapping does not matter. -/
def same : Datum → Datum → Bool
  | null, null => true
  | bool a, bool b => a == b
  | integer a, integer b => a == b
  | float a, float b => a.same b || (a.isNaN && b.isNaN)
  | text a, text b => a == b
  | sequence xs, sequence ys => sameItems xs ys
  | mapping xs, mapping ys => xs.length == ys.length && sameEntries xs ys
  | _, _ => false

private def sameItems : List Datum → List Datum → Bool
  | [], [] => true
  | x :: xs, y :: ys => same x y && sameItems xs ys
  | _, _ => false

private def sameEntries : List (Datum × Datum) → List (Datum × Datum) → Bool
  | [], _ => true
  | (k, v) :: xs, ys => ys.any (fun (k', v') => same k k' && same v v') && sameEntries xs ys

end

/-- Adds a pair to a mapping. A key that is there keeps its place and takes the new value. -/
def insert (key value : Datum) : List (Datum × Datum) → List (Datum × Datum)
  | [] => [(key, value)]
  | (k, v) :: rest => if same k key then (k, value) :: rest else (k, v) :: insert key value rest

mutual

def ofNode : Node → Except Fault Datum
  | .scalar isPlain tag raw => ofScalar isPlain tag raw
  | .sequence items => do return sequence (← ofNodes items)
  | .mapping pairs => do return mapping (← ofPairs [] pairs)

private def ofNodes : List Node → Except Fault (List Datum)
  | [] => return []
  | n :: rest => do return (← ofNode n) :: (← ofNodes rest)

private def ofPairs (before : List (Datum × Datum)) :
    List (Node × Node) → Except Fault (List (Datum × Datum))
  | [] => return before
  | (k, v) :: rest => do ofPairs (insert (← ofNode k) (← ofNode v) before) rest

end

mutual

/-- The value of a datum. Keys that are no texts become ones. -/
def toValue : Datum → Value
  | null => .null
  | bool b => .bool b
  | integer n => .number (Number.ofInt n)
  | float n => .number n
  | text s => .string s
  | sequence items => .array (toValues items)
  | mapping pairs => .object (toFields [] pairs)

private def toValues : List Datum → List Value
  | [] => []
  | d :: rest => toValue d :: toValues rest

private def toFields (before : Fields) : List (Datum × Datum) → Fields
  | [] => before
  | (k, v) :: rest => toFields (Fields.insert before (toValue k).text (toValue v)) rest

end

end Datum

def read (text : String) : Except Fault Value := do
  return (← Datum.ofNode (← Node.read text)).toValue

end Tabulate.Yaml
