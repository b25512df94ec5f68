import Tabulate.Groq.Eval
import Tabulate.Pipeline.Predicate
import Tabulate.Proofs.Value.Attribute
import Tabulate.Proofs.Value.Order

/-! Conditions and sort keys that both query languages have: a GROQ filter keeps the rows that a
condition of a pipeline keeps, and a GROQ order sorts as a pipeline does. -/
namespace Tabulate.Groq
open Pipeline (Predicate SortKey)

inductive Operand
  | literal (value : Value)
  /-- A path by a text that a pipeline reads it from. -/
  | path (text : String)

namespace Operand

def toGroq : Operand → Expr
  | literal value => .literal value
  | path text => .path (Path.ofText text)

def toPipeline : Operand → Pipeline.Expr
  | literal value => .literal value
  | path text => .field text

/-- Every path that a query can write is that of an operand. -/
theorem exists_toGroq {path : Path} (h : ∀ step ∈ path, step.IsAttribute) : ∃ o, toGroq o = .path path := by
  obtain ⟨text, htext⟩ := Path.exists_ofText h
  exact ⟨.path text, congrArg Expr.path htext⟩

def IsDefinite : Operand → Prop
  | literal value => value.isNull = false
  | path _ => False

def eval (row : Value) : Operand → Value
  | literal value => value
  | path text => row.resolve text

variable (row : Value)

@[simp] theorem eval_toGroq (o : Operand) : o.toGroq.eval row = o.eval row := by
  cases o with
  | literal value => rfl
  | path text => rfl

@[simp] theorem eval_toPipeline (o : Operand) : o.toPipeline.eval row = o.eval row := by
  cases o with
  | literal value => rfl
  | path text => rfl

@[simp] theorem evalAll_toGroq (os : List Operand) :
    Expr.evalAll row (os.map toGroq) = os.map (eval row) := by
  induction os with
  | nil => rfl
  | cons o os ih => rw [List.map_cons, Expr.evalAll, ih, eval_toGroq, List.map_cons]

private theorem isNull_eval_of_isDefinite {o : Operand} (h : o.IsDefinite) : (o.eval row).isNull = false := by
  cases o with
  | literal value => exact h
  | path text => exact h.elim

end Operand

def CompareOp.toPipeline : CompareOp → Pipeline.CompareOp
  | eq => .eq
  | ne => .ne
  | gt => .gt
  | ge => .ge
  | lt => .lt
  | le => .le

/-- A pipeline takes null to be at most and at least itself, which a GROQ comparison with null never
holds; beside a literal other than null they do not differ. -/
def CompareOp.Agrees (op : CompareOp) (left right : Operand) : Prop :=
  op = ge ∨ op = le → left.IsDefinite ∨ right.IsDefinite

inductive Condition
  | bare (operand : Operand)
  | compare (op : CompareOp) (left right : Operand) (agrees : op.Agrees left right)
  | among (operand : Operand) (items : List Operand)
  | and (left right : Condition)
  | or (left right : Condition)
  | not (inner : Condition)

namespace Condition

def toGroq : Condition → Expr
  | bare operand => operand.toGroq
  | compare op left right _ => .compare op left.toGroq right.toGroq
  | among operand items => .isIn operand.toGroq (.array (items.map Operand.toGroq))
  | and left right => .and left.toGroq right.toGroq
  | or left right => .or left.toGroq right.toGroq
  | not inner => .not inner.toGroq

def toPipeline : Condition → Predicate
  | bare operand => .truthy operand.toPipeline
  | compare op left right _ => .compare left.toPipeline op.toPipeline right.toPipeline
  | among operand items => .isIn operand.toPipeline (items.map Operand.toPipeline) false
  | and left right => .and left.toPipeline right.toPipeline
  | or left right => .or left.toPipeline right.toPipeline
  | not inner => .not inner.toPipeline

end Condition

section Comparisons
variable {a b : Value}

private theorem test_toPipeline {op : CompareOp}
    (h : op = .ge ∨ op = .le → a.isNull = false ∨ b.isNull = false) :
    op.test a b = op.toPipeline.test a b := by
  by_cases hnull : a.isNull = true ∨ b.isNull = true
  · have hguard : (!a.isNull && !b.isNull) = false := by
      rcases hnull with hnull | hnull <;> simp [hnull]
    cases op with
    | eq | ne => rfl
    | gt | lt =>
      rcases Value.compare?_null hnull with hc | hc <;>
        simp [CompareOp.test, CompareOp.toPipeline, Pipeline.CompareOp.test, hguard, hc]
    | ge =>
      have hc := Value.compare?_of_isNull hnull (h (.inl rfl))
      simp [CompareOp.test, CompareOp.toPipeline, Pipeline.CompareOp.test, hguard, hc]
    | le =>
      have hc := Value.compare?_of_isNull hnull (h (.inr rfl))
      simp [CompareOp.test, CompareOp.toPipeline, Pipeline.CompareOp.test, hguard, hc]
  · have hguard : a.isNull = false ∧ b.isNull = false := by simpa using hnull
    cases op <;> simp [CompareOp.test, CompareOp.toPipeline, Pipeline.CompareOp.test, hguard]

end Comparisons

private theorem isTruthy_bool (b : Bool) : (Value.bool b).isTruthy = b := rfl

/-- A condition is true in the one language where it holds in the other. -/
theorem Condition.isTruthy_eval (row : Value) (c : Condition) :
    (c.toGroq.eval row).isTruthy = c.toPipeline.holds row := by
  induction c with
  | bare operand =>
    rw [toGroq, toPipeline, Predicate.holds, Operand.eval_toGroq, Operand.eval_toPipeline]
  | compare op left right agrees =>
    have hnull := fun hop => (agrees hop).imp (Operand.isNull_eval_of_isDefinite row)
      (Operand.isNull_eval_of_isDefinite row)
    rw [toGroq, toPipeline, Expr.eval, Predicate.holds, isTruthy_bool, test_toPipeline]
    · simp only [Operand.eval_toGroq, Operand.eval_toPipeline]
    · simpa only [Operand.eval_toGroq] using hnull
  | among operand items =>
    have hitem : ∀ item : Operand, (operand.toPipeline.eval row).equals (item.toPipeline.eval row) =
        (operand.eval row).equals (item.eval row) := by
      intro item
      rw [Operand.eval_toPipeline, Operand.eval_toPipeline]
    simp only [toGroq, toPipeline, Expr.eval, Predicate.holds, isTruthy_bool, Operand.eval_toGroq,
      Operand.evalAll_toGroq, member, List.any_map, Function.comp_def, hitem, Bool.bne_false]
  | and left right ihLeft ihRight =>
    rw [toGroq, toPipeline, Expr.eval, Predicate.holds, isTruthy_bool, ihLeft, ihRight]
  | or left right ihLeft ihRight =>
    rw [toGroq, toPipeline, Expr.eval, Predicate.holds, isTruthy_bool, ihLeft, ihRight]
  | not inner ih => rw [toGroq, toPipeline, Expr.eval, Predicate.holds, isTruthy_bool, ih]

private theorem compareByKey_eq (key : SortKey) (a b : Value) :
    compareByKey (key.path, key.direction) a b = key.compareBy a b := by
  unfold compareByKey SortKey.compareBy
  generalize (a.at? key.path).getD .null = x
  generalize (b.at? key.path).getD .null = y
  cases x <;> cases y <;> rfl

/-- Both languages sort rows alike. -/
theorem sortBy_eq_orderBy (keys : List SortKey) (rows : List Value) :
    sortBy (keys.map fun key => (key.path, key.direction)) rows = Pipeline.orderBy keys rows := by
  have hrows : ∀ a b, (keys.map fun key => (key.path, key.direction)).foldr
      (fun key rest => (compareByKey key a b).then rest) .eq = Pipeline.compareRecords keys a b := by
    intro a b
    rw [List.foldr_map]
    simp only [compareByKey_eq]
    rfl
  simp only [sortBy, Pipeline.orderBy, hrows]

/-- A query of one filter keeps the rows that meet its condition in a pipeline, and a query of one
order sorts as a pipeline does. -/
theorem evaluate_agrees (c : Condition) (keys : List SortKey) (rows : List Value) :
    Query.evaluate ⟨[.filter c.toGroq]⟩ (.array rows) = .array (rows.filter (c.toPipeline.holds ·)) ∧
      Query.evaluate ⟨[.order (keys.map fun key => (key.path, key.direction))]⟩ (.array rows) =
        .array (Pipeline.orderBy keys rows) := by
  constructor
  · have hkeep : (fun row => (c.toGroq.eval row).isTruthy) = (c.toPipeline.holds ·) :=
      funext fun row => c.isTruthy_eval row
    simp only [Query.evaluate, everything, List.foldl_cons, List.foldl_nil, Segment.apply,
      Selection.toValue, hkeep]
  · simp only [Query.evaluate, everything, List.foldl_cons, List.foldl_nil, Segment.apply,
      Selection.toValue, sortBy_eq_orderBy]

end Tabulate.Groq
