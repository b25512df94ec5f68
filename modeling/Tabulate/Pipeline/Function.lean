import Tabulate.Frame.Cell
import Tabulate.Text.Split
import Tabulate.Token.Basic

/-! The scalar functions of pipeline expressions. -/
namespace Tabulate.Pipeline

inductive Ends
  | both
  | start
  | finish
deriving DecidableEq

inductive Function
  | strcat | toUpper | toLower
  | trim (ends : Ends)
  | strlen | substring | split | toText
  | sum | mul | diff | div
  | toLong | toDouble | floor | ceil | round
  | toDateTime | unixSeconds | unixMillis
  | arrayToMap | arrayFromEntries | kv
deriving DecidableEq

namespace Function

def all : List Function :=
  [strcat, toUpper, toLower, trim .both, trim .start, trim .finish, strlen, substring, split,
    toText, sum, mul, diff, div, toLong, toDouble, floor, ceil, round, toDateTime, unixSeconds,
    unixMillis, arrayToMap, arrayFromEntries, kv]

def name : Function → String
  | strcat => "strcat"
  | toUpper => "toupper"
  | toLower => "tolower"
  | trim .both => "trim"
  | trim .start => "ltrim"
  | trim .finish => "rtrim"
  | strlen => "strlen"
  | substring => "substring"
  | split => "split"
  | toText => "tostring"
  | sum => "sum"
  | mul => "mul"
  | diff => "diff"
  | div => "div"
  | toLong => "tolong"
  | toDouble => "todouble"
  | floor => "floor"
  | ceil => "ceil"
  | round => "round"
  | toDateTime => "todatetime"
  | unixSeconds => "unixtime_seconds_todatetime"
  | unixMillis => "unixtime_milliseconds_todatetime"
  | arrayToMap => "array_to_map"
  | arrayFromEntries => "array_from_entries"
  | kv => "kv"

def ofName? (text : String) : Option Function := all.find? fun f => sameWord f.name text

def arity : Function → Nat × Option Nat
  | strcat | sum | arrayToMap => (1, none)
  | mul => (2, none)
  | trim _ | round => (1, some 2)
  | substring | split => (2, some 3)
  | diff | div | arrayFromEntries => (2, some 2)
  | kv => (0, some 1)
  | _ => (1, some 1)

def accepts (f : Function) (count : Nat) : Bool :=
  f.arity.1 ≤ count && f.arity.2.all fun most => count ≤ most

private def onText (f : String → String) (v : Value) : Value :=
  (v.toText?.map fun s => .string (f s)).getD .null

private def trimWhere (ends : Ends) (drops : Char → Bool) (text : String) : String :=
  let fromStart (cs : List Char) : List Char := cs.dropWhile drops
  let fromEnd (cs : List Char) : List Char := (cs.reverse.dropWhile drops).reverse
  String.ofList <| match ends with
    | .both => fromEnd (fromStart text.toList)
    | .start => fromStart text.toList
    | .finish => fromEnd text.toList

private def trimCall (ends : Ends) : List Value → Value
  | [source] => onText (trimWhere ends Unicode.isBlank) source
  | [chars, source] =>
    match chars.toText? with
    | some set => onText (trimWhere ends (set.toList.contains ·)) source
    | none => onText (trimWhere ends Unicode.isBlank) source
  | _ => .null

private def substringCall (source start : Value) (length : Option Value) : Value :=
  match source.toText?, start.toNumber?, length.map Value.toNumber? with
  | some text, some start, none => .string (String.ofList (text.toList.drop start.toNat64))
  | some text, some start, some (some count) =>
    .string (String.ofList ((text.toList.drop start.toNat64).take count.toNat64))
  | _, _, _ => .null

private def splitCall (source delimiter : Value) (index : Option Value) : Value :=
  match source.toText?, delimiter.toText? with
  | some text, some delimiter =>
    if delimiter.isEmpty then .null
    else
      let parts := (Text.splitAt delimiter.toList text.toList).map fun p => Value.string (String.ofList p)
      match index.map Value.toNumber? with
      | none => .array parts
      | some (some i) =>
        if i.less 0 || i.isNaN then .null else (parts[i.toNat64]?).getD .null
      | some none => .null
  | _, _ => .null

private def foldNumbers (start : Number) (f : Number → Number → Number) (vs : List Value) : Value :=
  match vs.mapM Value.toNumber? with
  | some ns => .number (ns.foldl f start)
  | none => .null

private def onNumber (f : Number → Number) (v : Value) : Value :=
  (v.toNumber?.map fun n => .number (f n)).getD .null

private def onNumbers (f : Number → Number → Option Number) (a b : Value) : Value :=
  match a.toNumber?, b.toNumber? with
  | some a, some b => ((f a b).map Value.number).getD .null
  | _, _ => .null

private def roundCall (v : Value) (digits : Option Value) : Value :=
  let places := (((digits.bind Value.toNumber?).getD 0).toIntWithin 0 15).toNat
  let factor := Number.ofNat (tenTo places)
  onNumber (fun n => ((n.mul factor).round).div factor) v

private def instantText (t : Option Instant) : Value := (t.map fun t => .string t.text).getD .null

private def arrayItems? : Value → Option (List Value)
  | .array items => some items
  | _ => none

/-- Names the items of an array; an array of arrays names the items of each. -/
private def arrayToMapCall (array : Value) (names : List Value) : Value :=
  let named (items : List Value) : Value := .object (Fields.ofList ((names.map Value.text).zip items))
  match array with
  | .array items =>
    match items.mapM arrayItems? with
    | some (inner :: more) => .array ((inner :: more).map named)
    | _ => named items
  | _ => .null

private def arrayFromEntriesCall (key array : Value) : Value :=
  match array with
  | .array items => .array (items.map fun item => .object [(key.text, item)])
  | _ => .null

def entries : Value → Value
  | .object fields =>
    .array (fields.map fun (key, value) => .object [("key", .string key), ("value", value)])
  | _ => .null

/-- Applies a function to its arguments; missing arguments are null. -/
def call (f : Function) (args : List Value) (record : Value) : Value :=
  let first := args.head?.getD .null
  let second := (args[1]?).getD .null
  let third := args[2]?
  match f with
  | strcat => .string (String.join (args.map Value.text))
  | toUpper => onText Unicode.upper first
  | toLower => onText Unicode.lower first
  | trim ends => trimCall ends args
  | strlen => (first.toText?.map fun s => Value.ofNat s.length).getD .null
  | substring => substringCall first second third
  | split => splitCall first second third
  | toText => onText id first
  | sum =>
    match args with
    | [.array items] => foldNumbers 0 Number.add items
    | _ => foldNumbers 0 Number.add args
  | mul => foldNumbers 1 Number.mul args
  | diff => onNumbers (fun a b => some (a.sub b)) first second
  | div => onNumbers (fun a b => if b.same 0 then none else some (a.div b)) first second
  | toLong => onNumber Number.trunc first
  | toDouble => onNumber id first
  | floor => onNumber Number.floor first
  | ceil => onNumber Number.ceil first
  | round => roundCall first args[1]?
  | toDateTime => instantText (first.toInstant? .timestamp none)
  | unixSeconds => instantText (first.toNumber?.bind Timestamp.ofEpochSeconds?)
  | unixMillis => instantText (first.toNumber?.bind Timestamp.ofEpochMillis?)
  | arrayToMap => arrayToMapCall first (args.drop 1)
  | arrayFromEntries => arrayFromEntriesCall first second
  | kv => entries (args.head?.getD record)

end Function
end Tabulate.Pipeline
