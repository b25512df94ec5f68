import Tabulate.Pipeline.Function
import Tabulate.Value.Path

/-! Scalar expressions over one record. -/
namespace Tabulate.Pipeline

inductive Expr
  | literal (value : Value)
  /-- A field by its path, as it is written and as its steps. -/
  | fieldAt (path : String) (steps : Path)
  | call (function : Function) (args : List Expr)

namespace Expr

def field (path : String) : Expr := fieldAt path (Path.ofText path)

def defaultName : Expr → String
  | literal value => value.text
  | fieldAt path _ => path
  | call function _ => function.name

mutual

def eval (record : Value) : Expr → Value
  | literal value => value
  | fieldAt _ steps => (record.at? steps).getD .null
  | call function args => function.call (evalAll record args) record

def evalAll (record : Value) : List Expr → List Value
  | [] => []
  | e :: rest => eval record e :: evalAll record rest

end

end Expr

structure Assignment where
  name : String
  expr : Expr

def Assignment.unnamed (expr : Expr) : Assignment := ⟨expr.defaultName, expr⟩

end Tabulate.Pipeline
