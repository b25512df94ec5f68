import Tabulate.Pipeline.Expr
import Tabulate.Value.Order

/-! Conditions on one record. -/
namespace Tabulate.Pipeline

inductive CompareOp
  | eq | ne | gt | ge | lt | le
  | contains | startsWith | endsWith
deriving DecidableEq

namespace CompareOp

def ofSymbol? : String → Option CompareOp
  | "==" | "=" => some eq
  | "!=" => some ne
  | ">" => some gt
  | ">=" => some ge
  | "<" => some lt
  | "<=" => some le
  | _ => none

def ofWord? : String → Option CompareOp
  | "contains" => some contains
  | "startswith" => some startsWith
  | "endswith" => some endsWith
  | _ => none

private def onTexts (test : List Char → List Char → Bool) (a b : Value) : Bool :=
  match a.toText?, b.toText? with
  | some a, some b => test (Unicode.lower a).toList (Unicode.lower b).toList
  | _, _ => false

def test (op : CompareOp) (a b : Value) : Bool :=
  match op with
  | eq => a.equals b
  | ne => !a.equals b
  | gt => a.compare? b == some .gt
  | ge => a.compare? b == some .gt || a.compare? b == some .eq
  | lt => a.compare? b == some .lt
  | le => a.compare? b == some .lt || a.compare? b == some .eq
  | contains =>
    match a with
    | .array items => items.any (·.equals b)
    | a => onTexts Text.holds a b
  | startsWith => onTexts (fun a b => b.isPrefixOf a) a b
  | endsWith => onTexts (fun a b => b.isSuffixOf a) a b

end CompareOp

inductive Predicate
  | compare (left : Expr) (op : CompareOp) (right : Expr)
  | isIn (expr : Expr) (list : List Expr) (negated : Bool)
  | truthy (expr : Expr)
  | and (left right : Predicate)
  | or (left right : Predicate)
  | not (inner : Predicate)

namespace Predicate

def holds (record : Value) : Predicate → Bool
  | compare left op right => op.test (left.eval record) (right.eval record)
  | isIn expr list negated =>
    list.any (fun item => (expr.eval record).equals (item.eval record)) != negated
  | truthy expr => (expr.eval record).isTruthy
  | and left right => left.holds record && right.holds record
  | or left right => left.holds record || right.holds record
  | not inner => !inner.holds record

end Predicate
end Tabulate.Pipeline
