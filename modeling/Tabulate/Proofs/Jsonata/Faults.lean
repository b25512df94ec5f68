import Tabulate.Jsonata.Eval
import Tabulate.Proofs.Jsonata.Readers

/-! What goes wrong when a tree that calls known functions alone is evaluated: its values are of the wrong kind,
and no function is missing. -/
namespace Tabulate.Jsonata

def Fault.IsOfValues : Fault → Prop
  | .negation _ | .arithmetic _ _ | .notFinite | .notNumbers _ _ | .notNumeral _ | .notNumber _ | .notText _ => True
  | .lexical _ | .empty | .unexpected _ | .expected _ _ | .unexpectedEnd | .unknownVariable _ | .unknownFunction _ =>
    False

private theorem prefix_append (s t : String) : s.toList <+: (s ++ t).toList := by
  rw [String.toList_append]
  exact List.prefix_append _ _

private def Fault.starts : List String :=
  ["cannot negate a ", "arithmetic ", "$", "unable to cast "]

private theorem Fault.IsOfValues.exists_start {f : Fault} (h : f.IsOfValues) :
    ∃ start ∈ Fault.starts, start.toList <+: f.message.toList := by
  cases f with
  | negation kind => exact ⟨_, by decide, prefix_append "cannot negate a " kind⟩
  | arithmetic left right =>
    have hstart := prefix_append "arithmetic " ("on " ++ left)
    exact ⟨_, by decide, hstart.trans ((prefix_append _ " and ").trans (prefix_append _ right))⟩
  | notFinite => exact ⟨_, by decide, prefix_append "arithmetic " "result is not finite"⟩
  | notNumbers function kind =>
    have hstart := prefix_append "$" function
    exact ⟨_, by decide, hstart.trans ((prefix_append _ " expects numbers, found ").trans (prefix_append _ kind))⟩
  | notNumeral text =>
    have hstart := prefix_append "unable to cast " ("'" ++ text)
    exact ⟨_, by decide, hstart.trans (prefix_append _ "' to a number")⟩
  | notNumber kind =>
    have hstart := prefix_append "unable to cast " ("a " ++ kind)
    exact ⟨_, by decide, hstart.trans (prefix_append _ " to a number")⟩
  | notText kind => exact ⟨_, by decide, prefix_append "$" ("length expects a string, found " ++ kind)⟩
  | lexical | empty | unexpected | expected | unexpectedEnd | unknownVariable | unknownFunction => exact h.elim

/-- No fault of values tells of an unknown function. -/
theorem Fault.IsOfValues.message {f : Fault} (h : f.IsOfValues) :
    ¬ "unknown function".toList <+: f.message.toList := by
  intro hunknown
  obtain ⟨start, mem, hstart⟩ := h.exists_start
  have apart : ∀ start ∈ Fault.starts, ¬ start.toList <+: "unknown function".toList ∧
      ¬ "unknown function".toList <+: start.toList := by decide
  rcases List.prefix_or_prefix_of_prefix hstart hunknown with inside | inside
  · exact (apart start mem).1 inside
  · exact (apart start mem).2 inside

abbrev FailsByValues {α : Type} (x : Except Error α) : Prop := FailsWith (fun e => e.fault.IsOfValues) x

section Operators
variable {α : Type}

private theorem fault_failsByValues (position : Nat) {f : Fault} (h : f.IsOfValues) :
    FailsByValues (fault position f : Except Error α) := .error h

private theorem arithmetic_failsByValues (f : Number → Number → Number) (a b : Value) (position : Nat) :
    FailsByValues (arithmetic f a b position) := by
  unfold arithmetic
  split
  · exact .ok _
  · exact .ok _
  · dsimp only
    split
    · exact .ok _
    · exact fault_failsByValues _ trivial
  · exact fault_failsByValues _ trivial

private theorem applyBinary_failsByValues (op : BinaryOp) (a b : Value) (position : Nat) :
    FailsByValues (applyBinary op a b position) := by
  cases op with
  | add | sub | mul | div | mod => exact arithmetic_failsByValues _ a b position
  | concat | eq | ne | lt | le | gt | ge | and | or | isIn => exact .ok _

private theorem numbers_failsByValues (function : Function) (v : Value) (position : Nat) :
    FailsByValues (numbers function v position) := by
  refine FailsWith.mapM fun item _ => ?_
  split
  · exact .ok _
  · exact fault_failsByValues _ trivial

private theorem call_failsByValues (function : Function) (args : List Value) (context : Value) (position : Nat) :
    FailsByValues (function.call args context position) := by
  have hnumbers (v : Value) {finish : List Number → Value} :
      FailsByValues (numbers function v position >>= fun ns => .ok (finish ns)) :=
    (numbers_failsByValues function v position).bind fun _ => .ok _
  cases function with
  | count | string | uppercase | lowercase | join | keys | «exists» => exact .ok _
  | sum | max | min => exact hnumbers _
  | average => exact hnumbers _
  | number =>
    rw [Function.call]
    split
    case h_1 | h_2 | h_3 => exact .ok _
    case h_4 =>
      split
      · exact .ok _
      · exact fault_failsByValues _ trivial
    case h_5 => exact fault_failsByValues _ trivial
  | length =>
    rw [Function.call]
    split
    case h_1 | h_2 => exact .ok _
    case h_3 => exact fault_failsByValues _ trivial

end Operators

section Evaluation
variable {root : Value}

private theorem evalAll_failsByValues {nodes : List Node} {context : Value}
    (h : ∀ node ∈ nodes, FailsByValues (eval root context node)) : FailsByValues (evalAll root context nodes) := by
  induction nodes with
  | nil => exact .ok _
  | cons node nodes ih =>
    obtain ⟨hnode, hmore⟩ := List.forall_mem_cons.mp h
    rw [evalAll]
    exact hnode.bind fun _ => (ih hmore).bind fun _ => .ok _

private theorem evalEntries_failsByValues {entries : List (Node × Node)} {context : Value}
    (hkeys : ∀ entry ∈ entries, FailsByValues (eval root context entry.1))
    (hvalues : ∀ entry ∈ entries, FailsByValues (eval root context entry.2)) :
    FailsByValues (evalEntries root context entries) := by
  induction entries with
  | nil => exact .ok _
  | cons entry entries ih =>
    obtain ⟨hkey, hmoreKeys⟩ := List.forall_mem_cons.mp hkeys
    obtain ⟨hvalue, hmoreValues⟩ := List.forall_mem_cons.mp hvalues
    rw [evalEntries]
    exact hkey.bind fun _ => hvalue.bind fun _ => (ih hmoreKeys hmoreValues).bind fun _ => .ok _

/-- Where all calls are of known functions, evaluation fails by values alone. -/
theorem eval_failsByValues {node : Node} (h : node.IsKnown) (context : Value) :
    FailsByValues (eval root context node) := by
  induction h generalizing context with
  | literal | context | root | field | wildcard =>
    rw [eval]
    exact .ok _
  | path _ _ hleft hright =>
    rw [eval]
    refine (hleft context).bind fun value => ?_
    split
    next items =>
      exact FailsWith.bind (.mapM fun item _ => (hright item).map sequence) fun _ => .ok _
    next => exact .ok _
    next => exact hright value
  | filter _ _ hleft hpredicate =>
    rw [eval]
    refine (hleft context).bind fun value => ?_
    refine FailsWith.bind (.filterM fun entry _ => ?_) fun _ => .ok _
    exact (hpredicate entry.1).bind fun _ => .ok _
  | toArray _ hleft =>
    rw [eval]
    exact (hleft context).bind fun _ => .ok _
  | binary _ _ hleft hright =>
    rw [eval]
    refine (hleft context).bind fun a => ?_
    split
    · exact .ok _
    · split
      · exact .ok _
      · exact (hright context).bind fun b => applyBinary_failsByValues _ a b _
  | negate _ hoperand =>
    rw [eval]
    refine (hoperand context).bind fun value => ?_
    split
    case h_1 | h_2 => exact .ok _
    case h_3 => exact fault_failsByValues _ trivial
  | whether _ _ htest hyes =>
    rw [eval]
    refine (htest context).bind fun value => ?_
    split
    · exact hyes context
    · exact .ok _
  | choice _ _ _ htest hyes hno =>
    rw [eval]
    refine (htest context).bind fun value => ?_
    split
    · exact hyes context
    · exact hno context
  | array _ hitems =>
    rw [eval]
    exact (evalAll_failsByValues fun item mem => hitems item mem context).bind fun _ => .ok _
  | object _ _ hkeys hvalues =>
    rw [eval]
    exact (evalEntries_failsByValues (fun entry mem => hkeys entry mem context) fun entry mem =>
      hvalues entry mem context).bind fun _ => .ok _
  | called known _ hargs =>
    rw [eval]
    refine (evalAll_failsByValues fun arg mem => hargs arg mem context).bind fun args => ?_
    rw [known]
    exact call_failsByValues _ args context _

/-- An expression that is read fails by the values that it is applied to, and never for want of a function. -/
theorem evaluate_failsByValues {source : String} {e : Expression} (h : Expression.parse source = .ok e)
    (input : Value) : FailsByValues (e.evaluate input) := eval_failsByValues (isKnown_of_parse h) input

end Evaluation
end Tabulate.Jsonata
