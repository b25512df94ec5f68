import Tabulate.Jsonata.Basic
import Tabulate.Frame.Cell
import Tabulate.Value.Order

/-! Evaluation of JSONata expressions. Null is the empty sequence, and a sequence of one item
is that item. -/
namespace Tabulate.Jsonata

def sequence (v : Value) : List Value := v.rows

def collapse : List Value → Value
  | [] => .null
  | [item] => item
  | items => .array items

mutual

/-- The field of an object, or the fields of all objects in an array. -/
def fieldOf (name : String) : Value → Value
  | .object fields => (Fields.get? fields name).getD .null
  | .array items => collapse (fieldsOf name items)
  | _ => .null

def fieldsOf (name : String) : List Value → List Value
  | [] => []
  | item :: rest => sequence (fieldOf name item) ++ fieldsOf name rest

end

mutual

def allFields : Value → Value
  | .object fields => collapse (fields.flatMap fun (_, value) => sequence value)
  | .array items => collapse (allFieldsOf items)
  | _ => .null

def allFieldsOf : List Value → List Value
  | [] => []
  | item :: rest => sequence (allFields item) ++ allFieldsOf rest

end

def fault {α : Type} (position : Nat) (f : Fault) : Except Error α := .error ⟨position, f⟩

/-- Arithmetic on two numbers; null gives null, and the result must be finite. -/
def arithmetic (f : Number → Number → Number) (a b : Value) (position : Nat) : Except Error Value :=
  match a, b with
  | .null, _ | _, .null => .ok .null
  | .number a, .number b =>
    let n := f a b
    if n.isFinite then .ok (.number n) else fault position .notFinite
  | a, b => fault position (.arithmetic a.typeName b.typeName)

def applyBinary (op : BinaryOp) (a b : Value) (position : Nat) : Except Error Value :=
  let order := a.compare? b
  match op with
  | .add => arithmetic Number.add a b position
  | .sub => arithmetic Number.sub a b position
  | .mul => arithmetic Number.mul a b position
  | .div => arithmetic Number.div a b position
  | .mod => arithmetic Number.rem a b position
  | .concat => .ok (.string (a.text ++ b.text))
  | .eq => .ok (.bool (!a.isNull && a.equals b))
  | .ne => .ok (.bool (!a.isNull && !b.isNull && !a.equals b))
  | .lt => .ok (.bool (order == some .lt))
  | .le => .ok (.bool (order == some .lt || order == some .eq))
  | .gt => .ok (.bool (order == some .gt))
  | .ge => .ok (.bool (order == some .gt || order == some .eq))
  | .and | .or => .ok (.bool b.isTruthy)
  | .isIn =>
    .ok (.bool (match b with
      | .array items => items.any fun item => a.equals item
      | b => a.equals b))

def numbers (function : Function) (v : Value) (position : Nat) : Except Error (List Number) :=
  (sequence v).mapM fun item =>
    match item.asNumber? with
    | some n => .ok n
    | none => fault position (.notNumbers function.name item.typeName)

private def reduce (f : Number → Number → Number) : List Number → Value
  | [] => .null
  | n :: rest => .number (rest.foldl f n)

private def keysOf (items : List Value) : List String :=
  items.foldl
    (fun keys item => match item with
      | .object fields =>
        fields.foldl (fun keys (key, _) => if keys.contains key then keys else keys ++ [key]) keys
      | _ => keys)
    []

/-- Calls a function; without arguments it is applied to the context. -/
def Function.call (function : Function) (args : List Value) (context : Value) (position : Nat) :
    Except Error Value :=
  let first := args.head?.getD context
  match function with
  | sum => do return .number (Number.sum (← numbers function first position))
  | count => .ok (Value.ofNat (sequence first).length)
  | max => do return reduce Number.max (← numbers function first position)
  | min => do return reduce Number.min (← numbers function first position)
  | average => do
    let ns ← numbers function first position
    return if ns.isEmpty then .null else .number ((Number.sum ns).div (Number.ofNat ns.length))
  | string =>
    .ok (match first with
      | .null => .null
      | other => .string other.text)
  | number =>
    match first with
    | .null => .ok .null
    | .number n => .ok (.number n)
    | .bool b => .ok (.number (if b then 1 else 0))
    | .string s =>
      match Number.ofText? s with
      | some n => .ok (.number n)
      | none => fault position (.notNumeral s)
    | other => fault position (.notNumber other.typeName)
  | uppercase => .ok ((first.toText?.map fun s => .string (Unicode.upper s)).getD .null)
  | lowercase => .ok ((first.toText?.map fun s => .string (Unicode.lower s)).getD .null)
  | length =>
    match first with
    | .null => .ok .null
    | .string s => .ok (Value.ofNat s.length)
    | other => fault position (.notText other.typeName)
  | join =>
    let separator := ((args[1]?).map Value.text).getD ""
    .ok (.string (separator.intercalate ((sequence first).map Value.text)))
  | keys => .ok (collapse ((keysOf (sequence first)).map .string))
  | «exists» => .ok (.bool !first.isNull)

/-- Whether a predicate's value keeps the item at an index among so many: a number is an
index, from the end if negative, and anything else counts as true or false. -/
def keeps (predicate : Value) (index count : Nat) : Bool :=
  match predicate with
  | .number n =>
    let wanted := n.floor.toInt64
    (if wanted < 0 then count + wanted else wanted) == index
  | other => other.isTruthy

mutual

def eval (root context : Value) : Node → Except Error Value
  | .literal value => .ok value
  | .context => .ok context
  | .root => .ok root
  | .field name => .ok (fieldOf name context)
  | .wildcard => .ok (allFields context)
  | .path left right => do
    match ← eval root context left with
    | .array items => return collapse (← items.mapM fun item => (eval root item right).map sequence).flatten
    | .null => return .null
    | value => eval root value right
  | .toArray left => do return .array (sequence (← eval root context left))
  | .filter left predicate => do
    let items := sequence (← eval root context left)
    let kept ← items.zipIdx.filterM fun (item, index) => do
      return keeps (← eval root item predicate) index items.length
    return collapse (kept.map Prod.fst)
  | .binary op left right position => do
    let a ← eval root context left
    if op = .and ∧ !a.isTruthy then return .bool false
    else if op = .or ∧ a.isTruthy then return .bool true
    else applyBinary op a (← eval root context right) position
  | .negate operand position => do
    match ← eval root context operand with
    | .null => return .null
    | .number n => return .number n.neg
    | other => fault position (.negation other.typeName)
  | .condition test yes no => do
    if (← eval root context test).isTruthy then eval root context yes
    else
      match no with
      | some no => eval root context no
      | none => return .null
  | .array items => do
    return .array ((← evalAll root context items).filter (!·.isNull))
  | .object entries => do
    return .object (Fields.ofList ((← evalEntries root context entries).filter (!·.2.isNull)))
  | .called name args position => do
    let args ← evalAll root context args
    match Function.ofName? name with
    | some function => function.call args context position
    | none => fault position (.unknownFunction name)

def evalAll (root context : Value) : List Node → Except Error (List Value)
  | [] => .ok []
  | node :: rest => do return (← eval root context node) :: (← evalAll root context rest)

def evalEntries (root context : Value) : List (Node × Node) → Except Error (List (String × Value))
  | [] => .ok []
  | (key, value) :: rest => do
    let key ← eval root context key
    let value ← eval root context value
    return (key.text, value) :: (← evalEntries root context rest)

end

def Expression.evaluate (e : Expression) (input : Value) : Except Error Value :=
  eval input input e.root

end Tabulate.Jsonata
