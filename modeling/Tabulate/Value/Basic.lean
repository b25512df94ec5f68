import Tabulate.Number.Basic

/-! Dynamic values: what every reader produces and every query language computes on.
The fields of an object keep their order and are found by their first occurrence. -/
namespace Tabulate

inductive Value
  | null
  | bool (value : Bool)
  | number (value : Number)
  | string (value : String)
  | array (items : List Value)
  | object (fields : List (String × Value))

/-- Fields in insertion order. -/
abbrev Fields := List (String × Value)

namespace Fields

def get? (fields : Fields) (key : String) : Option Value := fields.lookup key

def keys (fields : Fields) : List String := fields.map Prod.fst

def contains (fields : Fields) (key : String) : Bool := fields.any (·.1 == key)

/-- Gives a key its value: in place if the key is present, else at the end. -/
def insert : Fields → String → Value → Fields
  | [], key, value => [(key, value)]
  | (name, old) :: rest, key, value =>
    if name = key then (name, value) :: rest else (name, old) :: insert rest key value

/-- Leaves out a key and keeps the order of the others. -/
def erase (fields : Fields) (key : String) : Fields := fields.filter (·.1 != key)

/-- The fields of a list of pairs: a repeated key keeps its first place and its last value. -/
def ofList (pairs : List (String × Value)) : Fields :=
  pairs.foldl (fun fields (key, value) => fields.insert key value) []

end Fields

namespace Value

instance : Inhabited Value := ⟨null⟩

def ofNat (n : Nat) : Value := number (Number.ofNat n)

def isNull : Value → Bool
  | null => true
  | _ => false

def asString? : Value → Option String
  | string s => some s
  | _ => none

def asNumber? : Value → Option Number
  | number n => some n
  | _ => none

def asBool? : Value → Option Bool
  | bool b => some b
  | _ => none

def asFields? : Value → Option Fields
  | object fields => some fields
  | _ => none

def get? : Value → String → Option Value
  | object fields, key => Fields.get? fields key
  | _, _ => none

def item? : Value → Nat → Option Value
  | array items, index => items[index]?
  | _, _ => none

def typeName : Value → String
  | null => "null"
  | bool _ => "boolean"
  | number _ => "number"
  | string _ => "string"
  | array _ => "array"
  | object _ => "object"

def isTruthy : Value → Bool
  | null => false
  | bool b => b
  | number n => !n.same 0 && !n.isNaN
  | string s => !s.isEmpty
  | array items => !items.isEmpty
  | object fields => !fields.isEmpty

/-- The rows that a value stands for: the items of an array, none for null, else the value. -/
def rows : Value → List Value
  | array items => items
  | null => []
  | other => [other]

mutual

private def decEq (v w : Value) : Decidable (v = w) :=
  match v, w with
  | null, null => isTrue rfl
  | bool a, bool b => decidable_of_iff (a = b) (by rw [bool.injEq])
  | number a, number b => decidable_of_iff (a = b) (by rw [number.injEq])
  | string a, string b => decidable_of_iff (a = b) (by rw [string.injEq])
  | array a, array b =>
    haveI := decEqItems a b
    decidable_of_iff (a = b) (by rw [array.injEq])
  | object a, object b =>
    haveI := decEqFields a b
    decidable_of_iff (a = b) (by rw [object.injEq])
  | null, bool _ | null, number _ | null, string _ | null, array _ | null, object _
  | bool _, null | bool _, number _ | bool _, string _ | bool _, array _ | bool _, object _
  | number _, null | number _, bool _ | number _, string _ | number _, array _ | number _, object _
  | string _, null | string _, bool _ | string _, number _ | string _, array _ | string _, object _
  | array _, null | array _, bool _ | array _, number _ | array _, string _ | array _, object _
  | object _, null | object _, bool _ | object _, number _ | object _, string _ | object _, array _ =>
    isFalse fun h => by cases h

private def decEqItems (vs ws : List Value) : Decidable (vs = ws) :=
  match vs, ws with
  | [], [] => isTrue rfl
  | v :: vs, w :: ws =>
    haveI := decEq v w
    haveI := decEqItems vs ws
    decidable_of_iff (v = w ∧ vs = ws) (by rw [List.cons.injEq])
  | [], _ :: _ | _ :: _, [] => isFalse fun h => by cases h

private def decEqFields (vs ws : List (String × Value)) : Decidable (vs = ws) :=
  match vs, ws with
  | [], [] => isTrue rfl
  | (key, v) :: vs, (key', w) :: ws =>
    haveI := decEq v w
    haveI := decEqFields vs ws
    decidable_of_iff ((key = key' ∧ v = w) ∧ vs = ws) (by rw [List.cons.injEq, Prod.mk.injEq])
  | [], _ :: _ | _ :: _, [] => isFalse fun h => by cases h

end

/-- Equality of structure, which also tells apart fields in different orders. -/
instance : DecidableEq Value := decEq

mutual

/-- Equality of values: numbers by value, arrays item by item, objects without regard to
the order of their fields. -/
def same : Value → Value → Bool
  | null, null => true
  | bool a, bool b => a == b
  | number a, number b => a.same b
  | string a, string b => a == b
  | array xs, array ys => sameItems xs ys
  | object xs, object ys => xs.length == ys.length && sameFields xs ys
  | _, _ => false

def sameItems : List Value → List Value → Bool
  | [], [] => true
  | x :: xs, y :: ys => same x y && sameItems xs ys
  | _, _ => false

def sameFields : List (String × Value) → Fields → Bool
  | [], _ => true
  | (key, x) :: xs, ys =>
    (match ys.get? key with
      | some y => same x y
      | none => false) && sameFields xs ys

end

end Value
end Tabulate
