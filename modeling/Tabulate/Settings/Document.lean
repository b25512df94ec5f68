import Tabulate.Json.Tree
import Tabulate.Yaml.Datum

/-! Documents that state settings, and what is read from them: a scalar counts as what is
expected where it stands. -/
namespace Tabulate.Settings

/-- What a scalar is where a text, a truth value, a whole number or nothing is expected, and
whether it leaves out what may be left out: one that claims to do so and does not has no answer. -/
structure Scalar where
  text? : Option String
  bool? : Option Bool
  whole? : Option Int
  isNull : Bool
  omits? : Option Bool

inductive Document
  | scalar (s : Scalar)
  | list (items : List Document)
  /-- A field whose key is no text has none. -/
  | record (fields : List (Option String × Document))

namespace Document

open Json in
mutual

/-- A JSON document: each scalar is of one kind. -/
def ofTree : Tree → Document
  | .null => scalar ⟨none, none, none, true, some true⟩
  | .bool b => scalar ⟨none, some b, none, false, some false⟩
  | .integer n => scalar ⟨none, none, some n, false, some false⟩
  | .float _ => scalar ⟨none, none, none, false, some false⟩
  | .string s => scalar ⟨some s, none, none, false, some false⟩
  | .array items => list (ofTrees items)
  | .object fields => record (ofTreeFields fields)

private def ofTrees : List Tree → List Document
  | [] => []
  | t :: rest => ofTree t :: ofTrees rest

private def ofTreeFields : List (String × Tree) → List (Option String × Document)
  | [] => []
  | (key, t) :: rest => (some key, ofTree t) :: ofTreeFields rest

end

/-- A YAML scalar: where a text is expected, it is what is written. Only a plain one leaves
something out, and a plain one that is tagged as nothing has to. -/
private def ofYamlScalar (isPlain : Bool) (tag : Option Yaml.Tag) (text : List Char) : Scalar :=
  let written := some (String.ofList text)
  let isTaggedNull := tag = some ⟨['!', '!'], ['n', 'u', 'l', 'l']⟩
  match Yaml.Datum.ofScalar isPlain tag text with
  | .ok .null => ⟨written, none, none, true, some isPlain⟩
  | .ok (.bool b) => ⟨written, some b, none, false, some false⟩
  | .ok (.integer n) => ⟨written, none, some n, false, some false⟩
  | _ => ⟨written, none, none, false, if isPlain ∧ isTaggedNull then none else some false⟩

private def keyOf : Yaml.Node → Option String
  | .scalar _ _ text => some (String.ofList text)
  | _ => none

open Yaml in
mutual

def ofNode : Node → Document
  | .scalar isPlain tag text => scalar (ofYamlScalar isPlain tag text)
  | .sequence items => list (ofNodes items)
  | .mapping pairs => record (ofNodePairs pairs)

private def ofNodes : List Node → List Document
  | [] => []
  | n :: rest => ofNode n :: ofNodes rest

private def ofNodePairs : List (Node × Node) → List (Option String × Document)
  | [] => []
  | (key, n) :: rest => (keyOf key, ofNode n) :: ofNodePairs rest

end

def asText? : Document → Option String
  | scalar s => s.text?
  | _ => none

def asBool? : Document → Option Bool
  | scalar s => s.bool?
  | _ => none

def asWord? (bits : Nat) : Document → Option Nat
  | scalar s => do
    let n ← s.whole?
    if Word.isUnsigned bits n then some n.toNat else none
  | _ => none

def asChar? (d : Document) : Option Char := do
  match (← d.asText?).toList with
  | [c] => some c
  | _ => none

def asList? {α : Type} (read : Document → Option α) : Document → Option (List α)
  | list items => items.mapM read
  | _ => none

def asOption? {α : Type} (read : Document → Option α) (d : Document) : Option (Option α) :=
  match d with
  | scalar s => s.omits?.bind fun omits => if omits then some none else (read d).map some
  | d => (read d).map some

/-- One of some names, which may also be the sole key of a record with nothing in it. -/
def asName? {α : Type} (names : List (String × α)) : Document → Option α
  | scalar s => s.text?.bind fun name => List.lookup name names
  | record [(some name, scalar s)] => if s.isNull then List.lookup name names else none
  | _ => none

/-- The fields of a record in the order of their names; each may have several names, and is
stated at most once. Fields of other names are passed over. A list states fields in order. -/
def fields? (names : List (List String)) : Document → Option (Nat → Option Document)
  | scalar _ => none
  | list items => if items.length ≤ names.length then some (items[·]?) else none
  | record fields =>
    let slots := names.map fun own => fields.filter (·.1.any own.contains)
    if fields.all (·.1.isSome) ∧ slots.all (·.length ≤ 1) then
      some fun i => (slots[i]?).bind fun slot => slot.head?.map (·.2)
    else none

end Document

def orDefault {α : Type} (standard : α) (read : Document → Option α) : Option Document → Option α
  | none => some standard
  | some d => read d

end Tabulate.Settings
