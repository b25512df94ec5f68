import Tabulate.Jsonata.Parser
import Tabulate.Proofs.Outcomes
import Tabulate.Proofs.Token.Rest

/-! What the parts of the parser for expressions find and leave: trees that call known functions alone, and
tokens at which a failure lies. -/
namespace Tabulate.Jsonata

inductive Node.IsKnown : Node → Prop
  | literal (value : Value) : IsKnown (.literal value)
  | context : IsKnown .context
  | root : IsKnown .root
  | field (name : String) : IsKnown (.field name)
  | wildcard : IsKnown .wildcard
  | path {left right} : IsKnown left → IsKnown right → IsKnown (.path left right)
  | filter {left predicate} : IsKnown left → IsKnown predicate → IsKnown (.filter left predicate)
  | toArray {left} : IsKnown left → IsKnown (.toArray left)
  | binary {op left right position} : IsKnown left → IsKnown right → IsKnown (.binary op left right position)
  | negate {operand position} : IsKnown operand → IsKnown (.negate operand position)
  | whether {test yes} : IsKnown test → IsKnown yes → IsKnown (.condition test yes none)
  | choice {test yes no} : IsKnown test → IsKnown yes → IsKnown no → IsKnown (.condition test yes (some no))
  | array {items} : (∀ item ∈ items, IsKnown item) → IsKnown (.array items)
  | object {entries} : (∀ entry ∈ entries, IsKnown entry.1) → (∀ entry ∈ entries, IsKnown entry.2) →
      IsKnown (.object entries)
  | called {name function args position} (known : Function.ofName? name = some function) :
      (∀ arg ∈ args, IsKnown arg) → IsKnown (.called name args position)

def Blames (ts : Tokens) (e : Error) : Prop := e.position = ts.position

section Readers
variable {ts us : Tokens}

theorem fail_reads {α : Type} {p : α → Prop} (h : us.IsRestOf ts) (fault : Fault) :
    Reads Blames p ts (fail us.position fault) := .error h rfl

theorem expect_passes (ts : Tokens) (symbol : String) : Passes Blames ts (expect ts symbol) := by
  unfold expect
  cases h : ts.eat? symbol with
  | none => exact ⟨ts, .refl ts, rfl⟩
  | some us => exact Tokens.isRestOf_eat? h

/-- The parts of the parser, which read each other, with so many steps. -/
structure PartsRead (n : Nat) : Prop where
  expression (power : Nat) (ts : Tokens) : Reads Blames Node.IsKnown ts (readExpression n power ts)
  operators (power : Nat) {left : Node} (known : left.IsKnown) (ts : Tokens) :
    Reads Blames Node.IsKnown ts (readOperators n power left ts)
  operand (ts : Tokens) : Reads Blames Node.IsKnown ts (readOperand n ts)
  list (close : String) (ts : Tokens) :
    Reads Blames (fun items => ∀ item ∈ items, item.IsKnown) ts (readList n close ts)
  items (close : String) (ts : Tokens) :
    Reads Blames (fun items => ∀ item ∈ items, item.IsKnown) ts (readItems n close ts)
  entries (ts : Tokens) :
    Reads Blames (fun entries => (∀ entry ∈ entries, entry.1.IsKnown) ∧ ∀ entry ∈ entries, entry.2.IsKnown) ts
      (readEntries n ts)

section Parts
variable {n : Nat} (parts : PartsRead n)
include parts

private theorem readExpression_succ (power : Nat) (ts : Tokens) :
    Reads Blames Node.IsKnown ts (readExpression (n + 1) power ts) := by
  rw [readExpression]
  exact (parts.operand ts).bind fun left us hleft hus => (parts.operators power hleft us).after hus

private theorem readOperators_succ (power : Nat) {left : Node} (hleft : left.IsKnown) (ts : Tokens) :
    Reads Blames Node.IsKnown ts (readOperators (n + 1) power left ts) := by
  have hnext (power : Nat) : Reads Blames Node.IsKnown ts (readExpression n power ts.tail) :=
    (parts.expression power ts.tail).after ts.isRestOf_tail
  rw [readOperators]
  split
  · exact .ok hleft (.refl ts)
  · split
    · exact .ok hleft (.refl ts)
    · refine (hnext _).bind fun right us hright hus => ?_
      exact (parts.operators _ (.path hleft hright) us).after hus
  · split
    · exact .ok hleft (.refl ts)
    · split
      next us hclose =>
        exact (parts.operators _ (.toArray hleft) us).after ((Tokens.isRestOf_eat? hclose).trans ts.isRestOf_tail)
      next =>
        refine (hnext _).bind fun predicate us hpredicate hus => ?_
        exact (expect_passes us _).bind hus fun vs hvs => (parts.operators _ (.filter hleft hpredicate) vs).after hvs
  · split
    · exact .ok hleft (.refl ts)
    · refine (hnext _).bind fun yes us hyes hus => ?_
      dsimp only
      split
      next vs hcolon =>
        have hvs := (Tokens.isRestOf_eat? hcolon).trans hus
        refine ((parts.expression _ vs).after hvs).bind fun no ws hno hws => ?_
        exact (parts.operators _ (.choice hleft hyes hno) ws).after hws
      next => exact (parts.operators _ (.whether hleft hyes) us).after hus
  · split
    · exact .ok hleft (.refl ts)
    · split
      · exact .ok hleft (.refl ts)
      · refine (hnext _).bind fun right us hright hus => ?_
        exact (parts.operators _ (.binary hleft hright) us).after hus

private theorem readOperand_succ (ts : Tokens) : Reads Blames Node.IsKnown ts (readOperand (n + 1) ts) := by
  rw [readOperand]
  dsimp only
  have hfail (fault : Fault) : Reads Blames Node.IsKnown ts (fail ts.position fault) := fail_reads (.refl ts) _
  split
  case h_1 | h_18 => exact hfail _
  case h_2 | h_3 | h_4 | h_6 | h_7 | h_8 => exact .ok (.literal _) ts.isRestOf_tail
  case h_5 | h_9 => exact .ok (.field _) ts.isRestOf_tail
  case h_10 => exact .ok .context ts.isRestOf_tail
  case h_11 => exact .ok .root ts.isRestOf_tail
  case h_12 =>
    split
    case h_1 | h_2 => exact hfail _
    case h_3 us function hopen hknown =>
      have hus := (Tokens.isRestOf_eat? hopen).trans ts.isRestOf_tail
      exact ((parts.list ")" us).after hus).bind fun args vs hargs hvs => .ok (.called hknown hargs) hvs
  case h_13 =>
    refine ((parts.expression 0 ts.tail).after ts.isRestOf_tail).bind fun inner us hinner hus => ?_
    exact (expect_passes us _).bind hus fun vs hvs => .ok hinner hvs
  case h_14 =>
    exact ((parts.list _ ts.tail).after ts.isRestOf_tail).bind fun items us hitems hus => .ok (.array hitems) hus
  case h_15 =>
    split
    case h_1 us hclose =>
      exact .ok (.object (List.forall_mem_nil _) (List.forall_mem_nil _))
        ((Tokens.isRestOf_eat? hclose).trans ts.isRestOf_tail)
    case h_2 =>
      exact ((parts.entries ts.tail).after ts.isRestOf_tail).bind fun entries us hentries hus =>
        .ok (.object hentries.1 hentries.2) hus
  case h_16 => exact .ok .wildcard ts.isRestOf_tail
  case h_17 =>
    exact ((parts.expression _ ts.tail).after ts.isRestOf_tail).bind fun operand us hoperand hus =>
      .ok (.negate hoperand) hus

private theorem readList_succ (close : String) (ts : Tokens) :
    Reads Blames (fun items => ∀ item ∈ items, item.IsKnown) ts (readList (n + 1) close ts) := by
  rw [readList]
  split
  next us hclose => exact .ok (List.forall_mem_nil _) (Tokens.isRestOf_eat? hclose)
  next => exact parts.items close ts

private theorem readItems_succ (close : String) (ts : Tokens) :
    Reads Blames (fun items => ∀ item ∈ items, item.IsKnown) ts (readItems (n + 1) close ts) := by
  rw [readItems]
  refine (parts.expression 0 ts).bind fun item us hitem hus => ?_
  dsimp only
  split
  next vs hclose => exact .ok (List.forall_mem_singleton.mpr hitem) ((Tokens.isRestOf_eat? hclose).trans hus)
  next =>
    refine (expect_passes us _).bind hus fun vs hvs => ?_
    exact ((parts.items close vs).after hvs).bind fun more ws hmore hws =>
      .ok (List.forall_mem_cons.mpr ⟨hitem, hmore⟩) hws

private theorem readEntries_succ (ts : Tokens) :
    Reads Blames (fun entries => (∀ entry ∈ entries, entry.1.IsKnown) ∧ ∀ entry ∈ entries, entry.2.IsKnown) ts
      (readEntries (n + 1) ts) := by
  rw [readEntries]
  refine (parts.expression 0 ts).bind fun key us hkey hus => ?_
  refine (expect_passes us _).bind hus fun vs hvs => ?_
  refine ((parts.expression 0 vs).after hvs).bind fun value ws hvalue hws => ?_
  dsimp only
  split
  next after hclose =>
    exact .ok ⟨List.forall_mem_singleton.mpr hkey, List.forall_mem_singleton.mpr hvalue⟩
      ((Tokens.isRestOf_eat? hclose).trans hws)
  next =>
    refine (expect_passes ws _).bind hws fun next hnext => ?_
    exact ((parts.entries next).after hnext).bind fun more after hmore hafter =>
      .ok ⟨List.forall_mem_cons.mpr ⟨hkey, hmore.1⟩, List.forall_mem_cons.mpr ⟨hvalue, hmore.2⟩⟩ hafter

end Parts

private theorem partsRead (n : Nat) : PartsRead n := by
  induction n with
  | zero =>
    have hfail {α : Type} {p : α → Prop} (ts : Tokens) : Reads Blames p ts (fail ts.position .unexpectedEnd) :=
      fail_reads (.refl ts) _
    exact ⟨fun _ => hfail, fun _ _ _ => hfail, hfail, fun _ => hfail, fun _ => hfail, hfail⟩
  | succ n ih =>
    exact ⟨readExpression_succ ih, readOperators_succ ih, readOperand_succ ih, readList_succ ih, readItems_succ ih,
      readEntries_succ ih⟩

theorem readExpression_reads (n power : Nat) (ts : Tokens) :
    Reads Blames Node.IsKnown ts (readExpression n power ts) := (partsRead n).expression power ts

/-- A text with tokens is read from them; one without any is refused. -/
theorem parse_settles {source : String} (h : Token.stream source false = .ok ts) :
    Expression.parse source = fail 0 .empty ∨
      Settles Blames (fun e => e.root.IsKnown) ts (Expression.parse source) := by
  rw [Expression.parse, h]
  by_cases hempty : ts.isEmpty
  · exact .inl (if_pos hempty)
  · have hstart : Settles Blames (· = ts) ts (Except.ok ts : Except Error Tokens) := rfl
    refine .inr (hstart.bind fun us hus => ?_)
    subst hus
    rw [if_neg hempty]
    refine Settles.bind (readExpression_reads _ 0 us) fun found hfound => ?_
    obtain ⟨node, ws⟩ := found
    obtain ⟨hnode, hws⟩ := hfound
    dsimp only
    split
    · exact hnode
    · exact .error hws rfl

/-- What is read calls known functions alone. -/
theorem isKnown_of_parse {source : String} {e : Expression} (h : Expression.parse source = .ok e) :
    e.root.IsKnown := by
  obtain ⟨ts, hts, -⟩ := exists_of_bind_eq_ok h
  rcases parse_settles (eq_ok_of_mapError hts) with hempty | hread
  · rw [hempty] at h
    contradiction
  · exact hread.of_eq_ok h

end Readers
end Tabulate.Jsonata
