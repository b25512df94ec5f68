import Tabulate.Pipeline.Parser
import Tabulate.Proofs.Token.Reading

/-! No part of the parser looks beyond a bar: what it reads it reads the same if a bar and more
tokens follow. -/
namespace Tabulate

theorem Tokens.eat?_eq_some_iff {ts us : Tokens} {symbol : String} :
    ts.eat? symbol = some us ↔ ts.peek? = some (.symbol symbol) ∧ us = ts.tail := by
  rw [Tokens.eat?, Option.ite_none_right_eq_some, Tokens.startsWith, beq_iff_eq, Option.some.injEq,
    eq_comm (a := us)]

/-- The longer tokens are the shorter ones and others, wherever they stand in their texts. If there
are others they start with a bar, and the shorter tokens do not end in one. -/
structure Extends (others : List Token) (short long : List Lexeme) : Prop where
  tokens : long.map (·.token) = short.map (·.token) ++ others
  bar : others = [] ∨
    others.head? = some (.symbol "|") ∧ short.getLast?.map (·.token) ≠ some (.symbol "|")

def BothExtend (others : List Token) (x y : Option Tokens) : Prop :=
  (x = none ∧ y = none) ∨ ∃ ts us, x = some ts ∧ y = some us ∧ Extends others ts.rest us.rest

namespace Extends
variable {others : List Token}

theorem cons {first : Lexeme} {short long : List Lexeme} (h : Extends others (first :: short) long) :
    ∃ again more, long = again :: more ∧ again.token = first.token ∧ Extends others short more := by
  obtain ⟨again, more, rfl, hfirst, hmore⟩ := List.map_eq_cons_iff.mp h.tokens
  refine ⟨again, more, rfl, hfirst, hmore, h.bar.imp_right fun bar => ⟨bar.1, ?_⟩⟩
  cases short with
  | nil => simp
  | cons second short => simpa [List.getLast?_cons_cons] using bar.2

/-- Beyond the end of the shorter tokens there is nothing or a bar. -/
theorem nil {long : List Lexeme} (h : Extends others [] long) :
    long.head?.map (·.token) = none ∨ long.head?.map (·.token) = some (.symbol "|") := by
  have htokens : long.map (·.token) = others := h.tokens
  rw [← List.head?_map, htokens]
  rcases h.bar with rfl | bar
  · exact .inl rfl
  · exact .inr bar.1

theorem length_le {short long : List Lexeme} (h : Extends others short long) :
    short.length ≤ long.length := by
  have hlength := congrArg List.length h.tokens
  simp only [List.length_append, List.length_map] at hlength
  omega

/-- At the end of the shorter tokens the bar comes next. -/
theorem bar_next {us : Tokens} (h : Extends (.symbol "|" :: others) [] us.rest) :
    us.peek? = some (.symbol "|") ∧ us.tail.rest.map (·.token) = others := by
  obtain ⟨bar, more, hlong, hbar, hmore⟩ := List.map_eq_cons_iff.mp h.tokens
  simp only [Tokens.peek?, Tokens.tail, hlong, List.head?_cons, Option.map_some, List.tail_cons]
  exact ⟨congrArg some hbar, hmore⟩

/-- A bar among the shorter tokens is not their last one. -/
theorem more_after_bar {token : Token} {ts us : Tokens} (h : Extends (token :: others) ts.rest us.rest)
    (hp : ts.peek? = some (.symbol "|")) : ts.tail.rest ≠ [] := by
  obtain ⟨_ | ⟨first, _ | ⟨second, rest⟩⟩, finish⟩ := ts
  · contradiction
  · have hbar := h.bar.resolve_left (List.cons_ne_nil _ _)
    exact absurd hp hbar.2
  · exact List.cons_ne_nil _ _

section Tokens
variable {ts us : Tokens} (h : Extends others ts.rest us.rest)
include h

theorem peek? {token : Token} (hp : ts.peek? = some token) :
    us.peek? = some token ∧ Extends others ts.tail.rest us.tail.rest := by
  obtain ⟨_ | ⟨first, short⟩, finish⟩ := ts
  · contradiction
  · obtain ⟨again, more, hlong, hagain, hmore⟩ := h.cons
    cases hp
    simp only [Tokens.peek?, Tokens.tail, hlong, List.head?_cons, Option.map_some, hagain, List.tail_cons]
    exact ⟨trivial, hmore⟩

private theorem peek?_none (hp : ts.peek? = none) : us.peek? = none ∨ us.peek? = some (.symbol "|") := by
  obtain ⟨_ | ⟨first, short⟩, finish⟩ := ts
  · exact h.nil
  · contradiction

theorem startsWith {symbol : String} (hs : symbol ≠ "|") :
    us.startsWith symbol = ts.startsWith symbol := by
  unfold Tokens.startsWith
  cases hp : ts.peek? with
  | none => rcases h.peek?_none hp with hu | hu <;> simp [hu, hs.symm]
  | some token => rw [(h.peek? hp).1]

theorem startsWithWord (word : String) : us.startsWithWord word = ts.startsWithWord word := by
  unfold Tokens.startsWithWord
  cases hp : ts.peek? with
  | none => rcases h.peek?_none hp with hu | hu <;> rw [hu]
  | some token => rw [(h.peek? hp).1]

theorem eat? (symbol : String) (hs : symbol ≠ "|") :
    BothExtend others (ts.eat? symbol) (us.eat? symbol) := by
  rw [Tokens.eat?, Tokens.eat?, h.startsWith hs]
  split
  · next starts => exact .inr ⟨_, _, rfl, rfl, (h.peek? (by simpa [Tokens.startsWith] using starts)).2⟩
  · exact .inl ⟨rfl, rfl⟩

theorem eatWord? (word : String) : BothExtend others (ts.eatWord? word) (us.eatWord? word) := by
  rw [Tokens.eatWord?, Tokens.eatWord?, h.startsWithWord word]
  split
  · next starts =>
    cases hp : ts.peek? with
    | none => simp [Tokens.startsWithWord, hp] at starts
    | some token => exact .inr ⟨_, _, rfl, rfl, (h.peek? hp).2⟩
  · exact .inl ⟨rfl, rfl⟩

end Tokens
end Extends

namespace Pipeline

/-- What one reading finds another one finds too, and goes on at the same place. -/
def Agrees {α : Type} (others : List Token) (x y : Except ParseError (α × Tokens)) : Prop :=
  ∀ a ts, x = .ok (a, ts) → ∃ us, y = .ok (a, us) ∧ Extends others ts.rest us.rest

section Agreement
variable {others : List Token} {α β : Type}

theorem Agrees.ok {ts us : Tokens} (h : Extends others ts.rest us.rest) (a : α) :
    Agrees others (.ok (a, ts)) (.ok (a, us)) := by
  rintro _ _ ⟨⟩
  exact ⟨us, rfl, h⟩

/-- A reading that fails finds nothing. -/
theorem Agrees.error (e : ParseError) (y : Except ParseError (α × Tokens)) :
    Agrees others (.error e) y := nofun

theorem Agrees.bind {x y : Except ParseError (α × Tokens)} (h : Agrees others x y)
    {f g : α × Tokens → Except ParseError (β × Tokens)}
    (hf : ∀ a ts us, Extends others ts.rest us.rest → Agrees others (f (a, ts)) (g (a, us))) :
    Agrees others (x >>= f) (y >>= g) := by
  cases x with
  | error e => exact .error e _
  | ok found =>
    obtain ⟨us, rfl, hrest⟩ := h found.1 found.2 rfl
    exact hf found.1 found.2 us hrest

private theorem Agrees.expect_bind {ts us : Tokens} (h : Extends others ts.rest us.rest) {symbol : String}
    (hs : symbol ≠ "|") {f g : Tokens → Except ParseError (β × Tokens)}
    (hf : ∀ ts us, Extends others ts.rest us.rest → Agrees others (f ts) (g us)) :
    Agrees others (expect ts symbol >>= f) (expect us symbol >>= g) := by
  unfold expect
  rcases h.eat? symbol hs with ⟨ht, -⟩ | ⟨ts, us, ht, hu, hrest⟩
  · rw [ht]
    exact .error _ _
  · rw [ht, hu]
    exact hf _ _ hrest

end Agreement

section Paths
variable {others : List Token} {ts us : Tokens}

private theorem readSteps_agrees {n m : Nat} (enough : n ≤ m) (h : Extends others ts.rest us.rest) :
    Agrees others (readSteps n ts) (readSteps m us) := by
  induction n generalizing m ts us with
  | zero => exact .error _ _
  | succ n ih =>
    obtain ⟨m, rfl, hnm⟩ := exists_step enough
    unfold readSteps
    rcases h.eat? "." (by decide) with ⟨ht, hu⟩ | ⟨ts', us', ht, hu, hafter⟩
    · simp only [ht, hu]
      rcases h.eat? "[" (by decide) with ⟨ht, hu⟩ | ⟨ts', us', ht, hu, hafter⟩
      · simp only [ht, hu]
        exact .ok h _
      · simp only [ht, hu]
        cases hp : ts'.peek? with
        | none => rcases hafter.peek?_none hp with hu | hu <;> (rw [hu]; exact .ok h _)
        | some token =>
          rw [(hafter.peek? hp).1]
          cases token with
          | number n =>
            exact .expect_bind (hafter.peek? hp).2 (by decide) fun ts us hinside =>
              (ih hnm hinside).bind fun steps ts us hrest => .ok hrest _
          | _ => exact .ok h _
    · simp only [ht, hu]
      cases hp : ts'.peek? with
      | none => exact .error _ _
      | some token =>
        rw [(hafter.peek? hp).1]
        cases token with
        | ident name => exact (ih hnm (hafter.peek? hp).2).bind fun steps ts us hrest => .ok hrest _
        | _ => exact .error _ _

private theorem readBarePath_agrees (name : String) (h : Extends others ts.rest us.rest) {token : Token}
    (hp : ts.peek? = some token) : Agrees others (readBarePath name ts) (readBarePath name us) :=
  (readSteps_agrees (Nat.succ_le_succ h.length_le) (h.peek? hp).2).bind fun _ _ _ hrest => .ok hrest _

private theorem readField_agrees (h : Extends others ts.rest us.rest) :
    Agrees others (readField ts) (readField us) := by
  unfold readField
  cases hp : ts.peek? with
  | none => exact .error _ _
  | some token =>
    rw [(h.peek? hp).1]
    cases token with
    | quoted text => exact .ok (h.peek? hp).2 _
    | backtick text => exact .ok (h.peek? hp).2 _
    | ident name => exact readBarePath_agrees name h hp
    | _ => exact .error _ _

end Paths

section Lists
variable {others : List Token} {α : Type} {read : Tokens → Except ParseError (α × Tokens)}
  (hread : ∀ {ts us : Tokens}, Extends others ts.rest us.rest → Agrees others (read ts) (read us))
include hread

private theorem readList_agrees {n m : Nat} (enough : n ≤ m) {ts us : Tokens}
    (h : Extends others ts.rest us.rest) : Agrees others (readList read n ts) (readList read m us) := by
  induction n generalizing m ts us with
  | zero => exact .error _ _
  | succ n ih =>
    obtain ⟨m, rfl, hnm⟩ := exists_step enough
    refine (hread h).bind fun first ts us hrest => ?_
    rcases hrest.eat? "," (by decide) with ⟨ht, hu⟩ | ⟨ts', us', ht, hu, hafter⟩
    · simp only [ht, hu]
      exact .ok hrest _
    · simp only [ht, hu]
      exact (ih hnm hafter).bind fun more ts us hrest => .ok hrest _

private theorem readAll_agrees {ts us : Tokens} (h : Extends others ts.rest us.rest) :
    Agrees others (readAll read ts) (readAll read us) :=
  readList_agrees hread (Nat.succ_le_succ h.length_le) h

end Lists

section Expressions
variable {others : List Token}

private theorem readWord_agrees {ts us : Tokens} (name : String) (h : Extends others ts.rest us.rest)
    {token : Token} (hp : ts.peek? = some token) :
    Agrees others (readWord name ts) (readWord name us) := by
  unfold readWord
  split
  · exact .ok (h.peek? hp).2 _
  · exact .ok (h.peek? hp).2 _
  · exact .ok (h.peek? hp).2 _
  · exact (readBarePath_agrees name h hp).bind fun text ts us hrest => .ok hrest _

private theorem readNegative_agrees {ts us : Tokens} (h : Extends others ts.rest us.rest) :
    Agrees others (readNegative ts) (readNegative us) := by
  unfold readNegative
  rcases h.eat? "-" (by decide) with ⟨ht, -⟩ | ⟨ts', us', ht, hu, hafter⟩
  · rw [ht]
    exact .error _ _
  · simp only [ht, hu]
    cases hp : ts'.peek? with
    | none => exact .error _ _
    | some token =>
      rw [(hafter.peek? hp).1]
      cases token with
      | number n => exact .ok (hafter.peek? hp).2 _
      | _ => exact .error _ _

structure OperandsAgree (others : List Token) (n m : Nat) : Prop where
  operand {ts us : Tokens} (h : Extends others ts.rest us.rest) :
    Agrees others (readOperand n ts) (readOperand m us)
  arguments {ts us : Tokens} (h : Extends others ts.rest us.rest) :
    Agrees others (readArguments n ts) (readArguments m us)
  moreArguments {ts us : Tokens} (h : Extends others ts.rest us.rest) :
    Agrees others (readMoreArguments n ts) (readMoreArguments m us)

section Operands
variable {n m : Nat} (parts : OperandsAgree others n m) {ts us : Tokens} (h : Extends others ts.rest us.rest)
include parts h

private theorem readOperand_agrees : Agrees others (readOperand (n + 1) ts) (readOperand (m + 1) us) := by
  rw [readOperand, readOperand]
  cases hp : ts.peek? with
  | none => exact .error _ _
  | some token =>
    obtain ⟨hu, hrest⟩ := h.peek? hp
    rw [hu]
    cases token with
    | quoted text => exact .ok hrest _
    | backtick text => exact .ok hrest _
    | singleQuoted text => exact .ok hrest _
    | number n => exact .ok hrest _
    | dollar name => exact .error _ _
    | symbol text => exact readNegative_agrees h
    | ident name =>
      simp only
      rcases hrest.eat? "(" (by decide) with ⟨ht, hu⟩ | ⟨ts', us', ht, hu, hinside⟩
      · simp only [ht, hu]
        exact readWord_agrees name h hp
      · simp only [ht, hu]
        cases Function.ofName? name with
        | none => exact .error _ _
        | some f =>
          refine (parts.arguments hinside).bind fun args ts us hafter => ?_
          dsimp only
          split
          · exact .ok hafter _
          · exact .error _ _

private theorem readArguments_agrees : Agrees others (readArguments (n + 1) ts) (readArguments (m + 1) us) := by
  rw [readArguments, readArguments]
  rcases h.eat? ")" (by decide) with ⟨ht, hu⟩ | ⟨ts', us', ht, hu, hafter⟩
  · rw [ht, hu]
    exact parts.moreArguments h
  · rw [ht, hu]
    exact .ok hafter _

private theorem readMoreArguments_agrees :
    Agrees others (readMoreArguments (n + 1) ts) (readMoreArguments (m + 1) us) := by
  rw [readMoreArguments, readMoreArguments]
  refine (parts.operand h).bind fun arg ts us hrest => ?_
  dsimp only
  rcases hrest.eat? ")" (by decide) with ⟨ht, hu⟩ | ⟨ts', us', ht, hu, hafter⟩
  · rw [ht, hu]
    exact .expect_bind hrest (by decide) fun ts us hmore =>
      (parts.moreArguments hmore).bind fun more ts us hafter => .ok hafter _
  · rw [ht, hu]
    exact .ok hafter _

end Operands

private theorem operandsAgree {n m : Nat} (enough : n ≤ m) : OperandsAgree others n m := by
  induction n generalizing m with
  | zero => exact ⟨fun _ => .error _ _, fun _ => .error _ _, fun _ => .error _ _⟩
  | succ n ih =>
    obtain ⟨m, rfl, hnm⟩ := exists_step enough
    exact ⟨readOperand_agrees (ih hnm), readArguments_agrees (ih hnm), readMoreArguments_agrees (ih hnm)⟩

private theorem readExpr_agrees {ts us : Tokens} (h : Extends others ts.rest us.rest) :
    Agrees others (readExpr ts) (readExpr us) := by
  have hlength := h.length_le
  exact (operandsAgree (by omega)).operand h

private theorem readArgumentList_agrees {ts us : Tokens} (h : Extends others ts.rest us.rest) :
    Agrees others (readArgumentList ts) (readArgumentList us) := by
  have hlength := h.length_le
  exact (operandsAgree (by omega)).arguments h

end Expressions

section Columns
variable {others : List Token} {ts us : Tokens} (h : Extends others ts.rest us.rest)
include h

private theorem readAlias?_agrees :
    (readAlias? ts = none ∧ readAlias? us = none) ∨
      ∃ name ts' us', readAlias? ts = some (name, ts') ∧ readAlias? us = some (name, us') ∧
        Extends others ts'.rest us'.rest := by
  unfold readAlias?
  cases hp : ts.peek? with
  | none => rcases h.peek?_none hp with hu | hu <;> (rw [hu]; exact .inl ⟨rfl, rfl⟩)
  | some token =>
    obtain ⟨hu, hrest⟩ := h.peek? hp
    rw [hu, Option.bind_some]
    cases labelOf? token with
    | none => exact .inl ⟨rfl, rfl⟩
    | some name =>
      rcases hrest.eat? "=" (by decide) with ⟨ht, hu⟩ | ⟨ts', us', ht, hu, hafter⟩
      · rw [ht, hu]
        exact .inl ⟨rfl, rfl⟩
      · rw [ht, hu]
        exact .inr ⟨name, ts', us', rfl, rfl, hafter⟩

private theorem readAssignment_agrees : Agrees others (readAssignment ts) (readAssignment us) := by
  unfold readAssignment
  rcases readAlias?_agrees h with ⟨ht, hu⟩ | ⟨name, ts', us', ht, hu, hrest⟩
  · rw [ht, hu]
    exact (readExpr_agrees h).bind fun e ts us hafter => .ok hafter _
  · rw [ht, hu]
    exact (readExpr_agrees hrest).bind fun e ts us hafter => .ok hafter _

private theorem readLabelled_agrees (label : Option String) :
    Agrees others (readLabelled label ts) (readLabelled label us) := by
  unfold readLabelled
  cases hp : ts.peek? with
  | none => exact .error _ _
  | some token =>
    obtain ⟨hu, hrest⟩ := h.peek? hp
    rw [hu]
    cases token with
    | ident name =>
      simp only
      cases AggregateFunction.ofName? name with
      | none => exact .error _ _
      | some f =>
        refine .expect_bind hrest (by decide) fun ts us hinside => ?_
        refine (readArgumentList_agrees hinside).bind fun args ts us hafter => ?_
        dsimp only
        split
        · exact .ok hafter _
        · exact .ok hafter _
        · exact .error _ _
    | _ => exact .error _ _

private theorem readAggregate_agrees : Agrees others (readAggregate ts) (readAggregate us) := by
  unfold readAggregate
  rcases readAlias?_agrees h with ⟨ht, hu⟩ | ⟨name, ts', us', ht, hu, hrest⟩
  · rw [ht, hu]
    exact readLabelled_agrees h none
  · rw [ht, hu]
    exact readLabelled_agrees hrest (some name)

private theorem readSummarize_agrees : Agrees others (readSummarize ts) (readSummarize us) := by
  refine (readAll_agrees readAggregate_agrees h).bind fun aggregates ts us hrest => ?_
  dsimp only
  rcases hrest.eatWord? "by" with ⟨ht, hu⟩ | ⟨ts', us', ht, hu, hafter⟩
  · rw [ht, hu]
    exact .ok hrest _
  · rw [ht, hu]
    exact (readAll_agrees readField_agrees hafter).bind fun fields ts us hfields => .ok hfields _

private theorem readSortKey_agrees : Agrees others (readSortKey ts) (readSortKey us) := by
  refine (readField_agrees h).bind fun field ts us hrest => ?_
  dsimp only
  rcases hrest.eatWord? "desc" with ⟨ht, hu⟩ | ⟨ts', us', ht, hu, hafter⟩
  · rw [ht, hu]
    refine .ok ?_ _
    rcases hrest.eatWord? "asc" with ⟨ht, hu⟩ | ⟨ts', us', ht, hu, hafter⟩
    · rwa [ht, hu]
    · rwa [ht, hu]
  · rw [ht, hu]
    exact .ok hafter _

private theorem readSortKeys_agrees (name : String) :
    Agrees others (readSortKeys name ts) (readSortKeys name us) := by
  unfold readSortKeys
  rcases h.eatWord? "by" with ⟨ht, hu⟩ | ⟨ts', us', ht, hu, hafter⟩
  · rw [ht]
    exact .error _ _
  · rw [ht, hu]
    exact (readAll_agrees readSortKey_agrees hafter).bind fun keys ts us hrest => .ok hrest _

end Columns

section Predicates
variable {others : List Token} {ts us : Tokens}

private theorem eatEither?_agrees (h : Extends others ts.rest us.rest) (word symbol : String)
    (hs : symbol ≠ "|") : BothExtend others (eatEither? ts word symbol) (eatEither? us word symbol) := by
  unfold eatEither?
  rcases h.eatWord? word with ⟨ht, hu⟩ | ⟨ts', us', ht, hu, hafter⟩
  · rw [ht, hu, Option.none_or, Option.none_or]
    exact h.eat? symbol hs
  · rw [ht, hu]
    exact .inr ⟨ts', us', rfl, rfl, hafter⟩

private theorem nextWord?_eq (h : Extends others ts.rest us.rest) : nextWord? us = nextWord? ts := by
  unfold nextWord?
  cases hp : ts.peek? with
  | none => rcases h.peek?_none hp with hu | hu <;> rw [hu]
  | some token => rw [(h.peek? hp).1]

private theorem nextOperator?_eq (h : Extends others ts.rest us.rest) :
    (nextSymbol? us).bind CompareOp.ofSymbol? = (nextSymbol? ts).bind CompareOp.ofSymbol? := by
  unfold nextSymbol?
  cases hp : ts.peek? with
  | none => rcases h.peek?_none hp with hu | hu <;> simp [hu, CompareOp.ofSymbol?]
  | some token => rw [(h.peek? hp).1]

private theorem startsWithName_eq (h : Extends others ts.rest us.rest) :
    startsWithName us = startsWithName ts := by
  unfold startsWithName
  cases hp : ts.peek? with
  | none => rcases h.peek?_none hp with hu | hu <;> rw [hu]
  | some token => rw [(h.peek? hp).1]

private theorem readRelation_agrees (left : Expr) (negated : Bool) (h : Extends others ts.rest us.rest) :
    Agrees others (readRelation left negated ts) (readRelation left negated us) := by
  unfold readRelation
  dsimp only
  rw [nextWord?_eq h, nextOperator?_eq h]
  cases hp : ts.peek? with
  | none =>
    have hword : nextWord? ts = none := by simp [nextWord?, hp]
    have hsymbol : nextSymbol? ts = none := by simp [nextSymbol?, hp]
    simp only [hword, hsymbol, Option.bind_none, Option.or_none, reduceCtorEq, if_false]
    split
    · exact .error _ _
    · exact .ok h _
  | some token =>
    have htail := (h.peek? hp).2
    split
    · exact .expect_bind htail (by decide) fun ts us hinside =>
        (readArgumentList_agrees hinside).bind fun list ts us hrest => .ok hrest _
    · split
      · exact .error _ _
      · cases ((nextWord? ts).bind CompareOp.ofWord?).or ((nextSymbol? ts).bind CompareOp.ofSymbol?) with
        | none => exact .ok h _
        | some op => exact (readExpr_agrees htail).bind fun right ts us hrest => .ok hrest _

private theorem readComparison_agrees (h : Extends others ts.rest us.rest) :
    Agrees others (readComparison ts) (readComparison us) := by
  refine (readExpr_agrees h).bind fun left ts us hrest => ?_
  dsimp only
  rw [hrest.startsWith (by decide)]
  cases hnot : ts.startsWith "!" with
  | false => exact readRelation_agrees left false hrest
  | true =>
    have hp : ts.peek? = some (.symbol "!") := by simpa [Tokens.startsWith] using hnot
    have htail := (hrest.peek? hp).2
    rw [startsWithName_eq htail]
    split
    · exact readRelation_agrees left true htail
    · exact readRelation_agrees left false hrest

structure ConditionsAgree (others : List Token) (n m : Nat) : Prop where
  alternatives {ts us : Tokens} (h : Extends others ts.rest us.rest) :
    Agrees others (readAlternatives n ts) (readAlternatives m us)
  moreAlternatives {ts us : Tokens} (h : Extends others ts.rest us.rest) (left : Predicate) :
    Agrees others (readMoreAlternatives n left ts) (readMoreAlternatives m left us)
  conditions {ts us : Tokens} (h : Extends others ts.rest us.rest) :
    Agrees others (readConditions n ts) (readConditions m us)
  moreConditions {ts us : Tokens} (h : Extends others ts.rest us.rest) (left : Predicate) :
    Agrees others (readMoreConditions n left ts) (readMoreConditions m left us)
  condition {ts us : Tokens} (h : Extends others ts.rest us.rest) :
    Agrees others (readCondition n ts) (readCondition m us)

section Conditions
variable {n m : Nat} (parts : ConditionsAgree others n m) (h : Extends others ts.rest us.rest)
include parts h

private theorem readAlternatives_agrees :
    Agrees others (readAlternatives (n + 1) ts) (readAlternatives (m + 1) us) := by
  rw [readAlternatives, readAlternatives]
  exact (parts.conditions h).bind fun left ts us hrest => parts.moreAlternatives hrest left

private theorem readMoreAlternatives_agrees (left : Predicate) :
    Agrees others (readMoreAlternatives (n + 1) left ts) (readMoreAlternatives (m + 1) left us) := by
  rw [readMoreAlternatives, readMoreAlternatives]
  rcases eatEither?_agrees h "or" "||" (by decide) with ⟨ht, hu⟩ | ⟨ts', us', ht, hu, hafter⟩
  · rw [ht, hu]
    exact .ok h _
  · rw [ht, hu]
    exact (parts.conditions hafter).bind fun right ts us hrest => parts.moreAlternatives hrest _

private theorem readConditions_agrees :
    Agrees others (readConditions (n + 1) ts) (readConditions (m + 1) us) := by
  rw [readConditions, readConditions]
  exact (parts.condition h).bind fun left ts us hrest => parts.moreConditions hrest left

private theorem readMoreConditions_agrees (left : Predicate) :
    Agrees others (readMoreConditions (n + 1) left ts) (readMoreConditions (m + 1) left us) := by
  rw [readMoreConditions, readMoreConditions]
  rcases eatEither?_agrees h "and" "&&" (by decide) with ⟨ht, hu⟩ | ⟨ts', us', ht, hu, hafter⟩
  · rw [ht, hu]
    exact .ok h _
  · rw [ht, hu]
    exact (parts.condition hafter).bind fun right ts us hrest => parts.moreConditions hrest _

private theorem readCondition_agrees :
    Agrees others (readCondition (n + 1) ts) (readCondition (m + 1) us) := by
  rw [readCondition, readCondition]
  rcases eatEither?_agrees h "not" "!" (by decide) with ⟨ht, hu⟩ | ⟨ts', us', ht, hu, hafter⟩
  · simp only [ht, hu]
    rcases h.eat? "(" (by decide) with ⟨ht, hu⟩ | ⟨ts', us', ht, hu, hinside⟩
    · rw [ht, hu]
      exact readComparison_agrees h
    · rw [ht, hu]
      exact (parts.alternatives hinside).bind fun inner ts us hrest =>
        .expect_bind hrest (by decide) fun ts us hafter => .ok hafter _
  · rw [ht, hu]
    exact (parts.condition hafter).bind fun inner ts us hrest => .ok hrest _

end Conditions

private theorem conditionsAgree {n m : Nat} (enough : n ≤ m) : ConditionsAgree others n m := by
  induction n generalizing m with
  | zero =>
    exact ⟨fun _ => .error _ _, fun _ _ => .error _ _, fun _ => .error _ _, fun _ _ => .error _ _, fun _ => .error _ _⟩
  | succ n ih =>
    obtain ⟨m, rfl, hnm⟩ := exists_step enough
    have parts := ih hnm
    exact ⟨readAlternatives_agrees parts, readMoreAlternatives_agrees parts, readConditions_agrees parts,
      readMoreConditions_agrees parts, readCondition_agrees parts⟩

private theorem readPredicate_agrees (h : Extends others ts.rest us.rest) :
    Agrees others (readPredicate ts) (readPredicate us) := by
  have hlength := h.length_le
  exact (conditionsAgree (by omega)).alternatives h

end Predicates

section Options
variable {others : List Token}

private theorem dropHyphens_extends {short long : List Lexeme} (h : Extends others short long) :
    Extends others (dropHyphens short) (dropHyphens long) := by
  induction short generalizing long with
  | nil =>
    cases long with
    | nil => exact h
    | cons first more =>
      have hbar : first.token = .symbol "|" := by simpa using h.nil
      rw [dropHyphens, dropHyphens, if_neg (by simp [hbar])]
      exact h
  | cons first short ih =>
    obtain ⟨again, more, rfl, hagain, hmore⟩ := h.cons
    have hleads : more.head?.any (fun next => leadsToOption next.token) =
        short.head?.any fun next => leadsToOption next.token := by
      cases short with
      | nil => cases more with
        | nil => rfl
        | cons bar more =>
          have hbar : bar.token = .symbol "|" := by simpa using hmore.nil
          simp [hbar, leadsToOption]
      | cons second short =>
        obtain ⟨again, more, rfl, hagain, -⟩ := hmore.cons
        simp [hagain]
    rw [dropHyphens, dropHyphens, hagain, hleads]
    split
    · exact ih hmore
    · exact h

variable {ts us : Tokens}

private theorem readOptionValue_agrees (key : String) (h : Extends others ts.rest us.rest) :
    Agrees others (readOptionValue key ts) (readOptionValue key us) := by
  unfold readOptionValue
  rcases h.eat? "=" (by decide) with ⟨ht, hu⟩ | ⟨ts', us', ht, hu, hafter⟩
  · rw [ht, hu]
    exact .ok h _
  · simp only [ht, hu]
    cases hp : ts'.peek? with
    | none => exact .error _ _
    | some token =>
      rw [(hafter.peek? hp).1, Option.bind_some]
      cases optionValueOf? token with
      | none => exact .error _ _
      | some value => exact .ok (hafter.peek? hp).2 _

private theorem readOptions_agrees {n m : Nat} (enough : n ≤ m) (o : Delimited.Options)
    (h : Extends others ts.rest us.rest) : Agrees others (readOptions n o ts) (readOptions m o us) := by
  induction n generalizing m o ts us with
  | zero => exact .error _ _
  | succ n ih =>
    obtain ⟨m, rfl, hnm⟩ := exists_step enough
    have hdropped : Extends others (⟨dropHyphens ts.rest, ts.finish⟩ : Tokens).rest
      (⟨dropHyphens us.rest, us.finish⟩ : Tokens).rest := dropHyphens_extends h
    unfold readOptions
    dsimp only
    cases hp : (⟨dropHyphens ts.rest, ts.finish⟩ : Tokens).peek? with
    | none => rcases hdropped.peek?_none hp with hu | hu <;> (rw [hu]; exact .ok hdropped _)
    | some token =>
      obtain ⟨hu, hrest⟩ := hdropped.peek? hp
      rw [hu]
      cases token with
      | ident name =>
        refine (readOptionValue_agrees _ hrest).bind fun value ts us hafter => ?_
        dsimp only
        cases setOption o (Unicode.lower name) value with
        | error fault => exact .error _ _
        | ok o => exact ih hnm o hafter
      | _ => exact .ok hdropped _

end Options

section Stages
variable {others : List Token} {ts us : Tokens}

private theorem readCount_agrees (h : Extends others ts.rest us.rest) :
    Agrees others (readCount ts) (readCount us) := by
  unfold readCount
  cases hp : ts.peek? with
  | none => exact .error _ _
  | some token =>
    rw [(h.peek? hp).1]
    cases token with
    | number n =>
      dsimp only
      split
      · exact .ok (h.peek? hp).2 _
      · exact .error _ _
    | _ => exact .error _ _

private theorem readExpression_agrees (h : Extends others ts.rest us.rest) :
    Agrees others (readExpression ts) (readExpression us) := by
  unfold readExpression
  cases hp : ts.peek? with
  | none => exact .error _ _
  | some token =>
    obtain ⟨hu, hrest⟩ := h.peek? hp
    rw [hu]
    cases token with
    | quoted text =>
      dsimp only
      cases Jsonata.Expression.parse text with
      | error e => exact .error _ _
      | ok e => exact .ok hrest _
    | singleQuoted text =>
      dsimp only
      cases Jsonata.Expression.parse text with
      | error e => exact .error _ _
      | ok e => exact .ok hrest _
    | _ => exact .error _ _

private theorem readVerb_agrees (defaults : Delimited.Options) (name : String) (verb : Verb)
    (h : Extends others ts.rest us.rest) :
    Agrees others (readVerb defaults name verb ts) (readVerb defaults name verb us) := by
  cases verb with
  | parseJson | parseMarkup _ | parseYaml | count => exact .ok h _
  | parseCsv =>
    exact (readOptions_agrees (Nat.succ_le_succ h.length_le) defaults h).bind fun o ts us hrest =>
      .ok hrest _
  | scope | mvExpand => exact (readField_agrees h).bind fun field ts us hrest => .ok hrest _
  | project | extend =>
    exact (readAll_agrees readAssignment_agrees h).bind fun assignments ts us hrest => .ok hrest _
  | projectAway => exact (readAll_agrees readField_agrees h).bind fun fields ts us hrest => .ok hrest _
  | summarize => exact readSummarize_agrees h
  | orderBy => exact readSortKeys_agrees h name
  | limit => exact (readCount_agrees h).bind fun n ts us hrest => .ok hrest _
  | filter => exact (readPredicate_agrees h).bind fun predicate ts us hrest => .ok hrest _
  | jsonata => exact (readExpression_agrees h).bind fun e ts us hrest => .ok hrest _

/-- A stage ends before a bar. -/
theorem readStage_agrees (defaults : Delimited.Options) (h : Extends others ts.rest us.rest) :
    Agrees others (readStage defaults ts) (readStage defaults us) := by
  unfold readStage
  cases hp : ts.peek? with
  | none => exact .error _ _
  | some token =>
    obtain ⟨hu, hrest⟩ := h.peek? hp
    rw [hu]
    cases token with
    | ident name =>
      dsimp only
      cases Verb.ofName? (Unicode.lower name) with
      | none => exact .error _ _
      | some verb => exact readVerb_agrees defaults name verb hrest
    | _ => exact .error _ _

end Stages
end Pipeline
end Tabulate
