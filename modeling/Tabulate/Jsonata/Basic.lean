import Tabulate.Value.Basic
import Tabulate.Token.Lexer

/-! JSONata expressions, and what can go wrong when they are read or evaluated. -/
namespace Tabulate.Jsonata

inductive BinaryOp
  | add | sub | mul | div | mod | concat
  | eq | ne | lt | le | gt | ge
  | and | or | isIn
deriving DecidableEq

/-- How tightly an operator binds its operands. -/
def BinaryOp.power : BinaryOp → Nat
  | or => 2
  | and => 3
  | eq | ne | lt | le | gt | ge | isIn => 4
  | add | sub | concat => 5
  | mul | div | mod => 6

inductive Function
  | sum | count | max | min | average | string | number | uppercase | lowercase
  | length | join | keys | exists
deriving DecidableEq

namespace Function

def all : List Function :=
  [sum, count, max, min, average, string, number, uppercase, lowercase, length, join, keys, «exists»]

def name : Function → String
  | sum => "sum"
  | count => "count"
  | max => "max"
  | min => "min"
  | average => "average"
  | string => "string"
  | number => "number"
  | uppercase => "uppercase"
  | lowercase => "lowercase"
  | length => "length"
  | join => "join"
  | keys => "keys"
  | «exists» => "exists"

def ofName? (text : String) : Option Function := all.find? (·.name == text)

end Function

/-- An expression tree. Operators and calls keep the byte offset that their errors report. -/
inductive Node
  | literal (value : Value)
  | context
  | root
  | field (name : String)
  | wildcard
  | path (left right : Node)
  | filter (left predicate : Node)
  /-- Empty brackets, which make an array of any value. -/
  | toArray (left : Node)
  | binary (op : BinaryOp) (left right : Node) (position : Nat)
  | negate (operand : Node) (position : Nat)
  | condition (test yes : Node) (no : Option Node)
  | array (items : List Node)
  | object (entries : List (Node × Node))
  /-- A call of the function of a name. -/
  | called (name : String) (args : List Node) (position : Nat)

def Node.call (function : Function) (args : List Node) (position : Nat) : Node :=
  .called function.name args position

inductive Fault
  | lexical (fault : Token.LexFault)
  | empty
  | unexpected (found : String)
  | expected (symbol found : String)
  | unexpectedEnd
  | unknownVariable (name : String)
  | unknownFunction (name : String)
  | negation (kind : String)
  | arithmetic (left right : String)
  | notFinite
  | notNumbers (function kind : String)
  | notNumeral (text : String)
  | notNumber (kind : String)
  | notText (kind : String)
deriving DecidableEq

def Fault.message : Fault → String
  | lexical fault => fault.message
  | empty => "empty expression"
  | unexpected found => s!"unexpected {found}"
  | expected symbol found => s!"expected '{symbol}' but found {found}"
  | unexpectedEnd => "unexpected end of expression"
  | unknownVariable name => s!"unknown variable ${name}"
  | unknownFunction name => s!"unknown function ${name}"
  | negation kind => s!"cannot negate a {kind}"
  | arithmetic left right => s!"arithmetic on {left} and {right}"
  | notFinite => "arithmetic result is not finite"
  | notNumbers function kind => s!"${function} expects numbers, found {kind}"
  | notNumeral text => s!"unable to cast '{text}' to a number"
  | notNumber kind => s!"unable to cast a {kind} to a number"
  | notText kind => s!"$length expects a string, found {kind}"

structure Error where
  position : Nat
  fault : Fault
deriving DecidableEq

def Error.message (e : Error) : String := s!"JSONata error at position {e.position}: {e.fault.message}"

structure Expression where
  source : String
  root : Node

end Tabulate.Jsonata
