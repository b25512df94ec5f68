import Tabulate.Groq.Basic
import Tabulate.Text.Split

/-! Evaluation of GROQ queries. -/
namespace Tabulate.Groq
open Pipeline (Direction)

/-- The value of a comparison; an order against null never holds. -/
def CompareOp.test (op : CompareOp) (a b : Value) : Bool :=
  match op with
  | eq => a.equals b
  | ne => !a.equals b
  | gt => !a.isNull && !b.isNull && a.compare? b == some .gt
  | ge => !a.isNull && !b.isNull && (a.compare? b == some .gt || a.compare? b == some .eq)
  | lt => !a.isNull && !b.isNull && a.compare? b == some .lt
  | le => !a.isNull && !b.isNull && (a.compare? b == some .lt || a.compare? b == some .eq)

/-- Whether a value is an item of an array or a text within a text. -/
def member (needle haystack : Value) : Bool :=
  match needle, haystack with
  | needle, .array items => items.any fun item => needle.equals item
  | .string part, .string text => Text.holds text.toList part.toList
  | _, _ => false

mutual

def Expr.eval (item : Value) : Expr → Value
  | .literal value => value
  | .path steps => (item.at? steps).getD .null
  | .array items => .array (evalAll item items)
  | .compare op left right => .bool (op.test (eval item left) (eval item right))
  | .isIn needle haystack => .bool (member (eval item needle) (eval item haystack))
  | .and left right => .bool ((eval item left).isTruthy && (eval item right).isTruthy)
  | .or left right => .bool ((eval item left).isTruthy || (eval item right).isTruthy)
  | .not inner => .bool !(eval item inner).isTruthy
  | .defined inner => .bool !(eval item inner).isNull

def Expr.evalAll (item : Value) : List Expr → List Value
  | [] => []
  | e :: rest => eval item e :: evalAll item rest

end

/-- What a query has selected so far: a list of elements or a single value. -/
inductive Selection
  | many (items : List Value)
  | one (value : Value)

def Selection.toValue : Selection → Value
  | many items => .array items
  | one value => value

/-- What the star selects: the items of an array, the items of the arrays in an object, or
the dataset itself. -/
def everything : Value → Selection
  | .array items => .many items
  | .object fields =>
    let arrays := fields.filterMap fun (_, value) => match value with
      | .array items => some items
      | _ => none
    if arrays.isEmpty then .one (.object fields) else .many arrays.flatten
  | other => .one other

def fromEnd (count : Nat) (position : Int) : Int :=
  if position < 0 then count + position else position

/-- The item at a position, from the end if negative. -/
def itemAt? (items : List Value) (position : Int) : Option Value :=
  let resolved := fromEnd items.length position
  if 0 ≤ resolved then items[resolved.toNat]? else none

/-- The items from one position to another; only an inclusive range holds the last. -/
def sliceOf (items : List Value) (first last : Int) (inclusive : Bool) : List Value :=
  let count := items.length
  let clamp (position : Int) : Nat := (Min.min (fromEnd count position) count).toNat
  let resolved := fromEnd count last
  let extra := if inclusive ∧ 0 ≤ resolved ∧ resolved < count then 1 else 0
  (items.drop (clamp first)).take (clamp last + extra - clamp first)

def project (entries : List Entry) (item : Value) : Value :=
  .object <| Fields.ofList <| entries.flatMap fun entry => match entry with
    | .spread => item.asFields?.getD []
    | .field name value => [(name, value.eval item)]

/-- The order of two elements by one key; null comes last in both directions. -/
def compareByKey (key : Path × Direction) (a b : Value) : Ordering :=
  let x := (a.at? key.1).getD .null
  let y := (b.at? key.1).getD .null
  if x.isNull || y.isNull then x.sortOrder y
  else
    match key.2 with
    | .ascending => x.sortOrder y
    | .descending => y.sortOrder x

def sortBy (keys : List (Path × Direction)) (items : List Value) : List Value :=
  items.mergeSort fun a b => keys.foldr (fun key rest => (compareByKey key a b).then rest) .eq != .gt

def Segment.apply : Segment → Selection → Selection
  | .filter condition, .many items => .many (items.filter fun item => (condition.eval item).isTruthy)
  | .filter condition, .one value => .one (if (condition.eval value).isTruthy then value else .null)
  | .index position, .many items => .one ((itemAt? items position).getD .null)
  | .slice first last inclusive, .many items => .many (sliceOf items first last inclusive)
  | .index _, .one _ | .slice .., .one _ => .one .null
  | .projection entries, .many items => .many (items.map (project entries))
  | .projection _, .one .null => .one .null
  | .projection entries, .one value => .one (project entries value)
  | .order keys, .many items => .many (sortBy keys items)
  | .order _, .one value => .one value

def Query.evaluate (q : Query) (dataset : Value) : Value :=
  (q.segments.foldl (fun selection segment => segment.apply selection) (everything dataset)).toValue

end Tabulate.Groq
