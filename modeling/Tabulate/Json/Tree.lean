import Tabulate.Number.Shortest
import Tabulate.Value.Basic

/-! JSON documents as they are written: whole numbers are told from others, and objects have
all fields that are written, repeated keys among them. -/
namespace Tabulate.Json

inductive Tree
  | null
  | bool (value : Bool)
  | integer (n : Int)
  | float (n : Number)
  | string (text : String)
  | array (items : List Tree)
  | object (fields : List (String × Tree))

namespace Tree

instance : Inhabited Tree := ⟨null⟩

def ofNat (n : Nat) : Tree := integer n

def ofNumber (n : Number) : Tree := if n.isIntegral then integer n.toInt64 else float n

mutual

def ofValue : Value → Tree
  | .null => null
  | .bool b => bool b
  | .number n => ofNumber n
  | .string s => string s
  | .array items => array (ofItems items)
  | .object fields => object (ofFields fields)

def ofItems : List Value → List Tree
  | [] => []
  | v :: rest => ofValue v :: ofItems rest

def ofFields : List (String × Value) → List (String × Tree)
  | [] => []
  | (key, v) :: rest => (key, ofValue v) :: ofFields rest

end

mutual

/-- The value of a document. A repeated key keeps its first place and its last value. -/
def toValue : Tree → Value
  | null => .null
  | bool b => .bool b
  | integer n => .number (Number.ofInt n)
  | float n => .number n
  | string s => .string s
  | array items => .array (toItems items)
  | object fields => .object (Fields.ofList (toPairs fields))

def toItems : List Tree → List Value
  | [] => []
  | t :: rest => toValue t :: toItems rest

def toPairs : List (String × Tree) → List (String × Value)
  | [] => []
  | (key, t) :: rest => (key, toValue t) :: toPairs rest

end

end Tree
end Tabulate.Json
