import Tabulate.Pipeline.Parser
import Tabulate.Proofs.Jsonata.Readers

/-! What the parts of the parser for pipelines find and leave: calls with as many arguments as their functions
take, fields with the steps of their paths, and tokens at which a failure lies. -/
namespace Tabulate.Pipeline

private theorem Function.accepts_iff {f : Function} {count : Nat} :
    f.accepts count ↔ f.arity.1 ≤ count ∧ ∀ most ∈ f.arity.2, count ≤ most := by
  rw [Function.accepts, Bool.and_eq_true, decide_eq_true_iff, Option.all_eq_true]
  simp only [decide_eq_true_iff, Option.mem_def]

/-- Every call has no less arguments than its function needs and no more than it takes, and every field has the
steps of its path. -/
inductive Expr.IsChecked : Expr → Prop
  | literal (value : Value) : IsChecked (.literal value)
  | fieldAt {path steps} (read : steps = Path.ofText path) : IsChecked (.fieldAt path steps)
  | call {function args} (enough : function.arity.1 ≤ args.length)
      (notMore : ∀ most ∈ function.arity.2, args.length ≤ most) : (∀ arg ∈ args, IsChecked arg) →
      IsChecked (.call function args)

private theorem Expr.isChecked_field (path : String) : (Expr.field path).IsChecked := .fieldAt rfl

def Predicate.IsChecked : Predicate → Prop
  | .compare left _ right => left.IsChecked ∧ right.IsChecked
  | .isIn expr list _ => expr.IsChecked ∧ ∀ item ∈ list, item.IsChecked
  | .truthy expr => expr.IsChecked
  | .and left right | .or left right => left.IsChecked ∧ right.IsChecked
  | .not inner => inner.IsChecked

structure Aggregate.IsChecked (a : Aggregate) : Prop where
  count : a.argument = none → a.function = .count
  argument : ∀ e, a.argument = some e → e.IsChecked

def Stage.IsChecked : Stage → Prop
  | .project assignments | .extend assignments => ∀ a ∈ assignments, a.expr.IsChecked
  | .summarize aggregates _ => ∀ a ∈ aggregates, a.IsChecked
  | .filter predicate => predicate.IsChecked
  | .jsonata e => e.root.IsKnown
  | _ => True

/-- An error lies at the first of some tokens, or in an expression in quotes there, whose places count from
behind the quote. -/
def Blames (ts : Tokens) (e : ParseError) : Prop :=
  e.position = ts.position ∨ ∃ text error, (ts.peek? = some (.quoted text) ∨ ts.peek? = some (.singleQuoted text)) ∧
    Jsonata.Expression.parse text = .error error ∧
    e = .malformed (ts.position + 1 + error.position) (.jsonata error.fault)

section Steps
variable {α : Type} {p : α → Prop} {ts us : Tokens}

theorem fail_reads (h : us.IsRestOf ts) (fault : SyntaxFault) : Reads Blames p ts (fail us.position fault) :=
  .error h (.inl rfl)

theorem expect_passes (ts : Tokens) (symbol : String) : Passes Blames ts (expect ts symbol) := by
  unfold expect
  cases h : ts.eat? symbol with
  | none => exact ⟨ts, .refl ts, .inl rfl⟩
  | some us => exact Tokens.isRestOf_eat? h

end Steps

section Paths

private theorem readSteps_reads (n : Nat) (ts : Tokens) : Reads Blames (fun _ => True) ts (readSteps n ts) := by
  induction n generalizing ts with
  | zero => exact fail_reads (.refl ts) _
  | succ n ih =>
    unfold readSteps
    split
    next after hpoint =>
      have hrest := after.isRestOf_tail.trans (Tokens.isRestOf_eat? hpoint)
      split
      next => exact ((ih _).after hrest).bind fun _ us _ hus => .ok trivial hus
      next => exact fail_reads hrest _
    next =>
      split
      next after hbracket =>
        have hrest := after.isRestOf_tail.trans (Tokens.isRestOf_eat? hbracket)
        split
        next =>
          refine (expect_passes _ _).bind hrest fun us hus => ?_
          exact ((ih us).after hus).bind fun _ vs _ hvs => .ok trivial hvs
        next => exact .ok trivial (.refl ts)
      next => exact .ok trivial (.refl ts)

private theorem readBarePath_reads (name : String) (ts : Tokens) :
    Reads Blames (fun _ => True) ts.tail (readBarePath name ts) :=
  (readSteps_reads _ _).bind fun _ _ _ hus => .ok trivial hus

private theorem readField_reads (ts : Tokens) : Reads Blames (fun _ => True) ts (readField ts) := by
  unfold readField
  split
  · exact .ok trivial ts.isRestOf_tail
  · exact .ok trivial ts.isRestOf_tail
  · exact (readBarePath_reads _ ts).after ts.isRestOf_tail
  · exact fail_reads (.refl ts) _

end Paths

section Lists
variable {α : Type} {p : α → Prop} {read : Tokens → Except ParseError (α × Tokens)}

/-- A list is of things of the kind that its reader finds. -/
theorem readAll_reads (hread : ∀ ts, Reads Blames p ts (read ts)) (ts : Tokens) :
    Reads Blames (fun found => ∀ a ∈ found, p a) ts (readAll read ts) := by
  unfold readAll
  generalize ts.rest.length + 1 = n
  induction n generalizing ts with
  | zero => exact fail_reads (.refl ts) _
  | succ n ih =>
    refine (hread ts).bind fun first us hfirst hus => ?_
    dsimp only
    split
    next => exact .ok (List.forall_mem_singleton.mpr hfirst) hus
    next vs hcomma =>
      exact ((ih vs).after ((Tokens.isRestOf_eat? hcomma).trans hus)).bind fun more ws hmore hws =>
        .ok (List.forall_mem_cons.mpr ⟨hfirst, hmore⟩) hws

end Lists

section Expressions

private theorem readWord_reads (name : String) (ts : Tokens) : Reads Blames Expr.IsChecked ts (readWord name ts) := by
  unfold readWord
  split
  case h_1 | h_2 | h_3 => exact .ok (.literal _) ts.isRestOf_tail
  case h_4 =>
    exact ((readBarePath_reads name ts).after ts.isRestOf_tail).bind fun text us _ hus =>
      .ok (Expr.isChecked_field text) hus

private theorem readNegative_reads (ts : Tokens) : Reads Blames Expr.IsChecked ts (readNegative ts) := by
  unfold readNegative
  split
  next => exact fail_reads (.refl ts) _
  next after hminus =>
    split
    · exact .ok (.literal _) (after.isRestOf_tail.trans (Tokens.isRestOf_eat? hminus))
    · exact fail_reads (.refl ts) _

structure OperandsRead (n : Nat) : Prop where
  operand (ts : Tokens) : Reads Blames Expr.IsChecked ts (readOperand n ts)
  arguments (ts : Tokens) : Reads Blames (fun args => ∀ arg ∈ args, arg.IsChecked) ts (readArguments n ts)
  moreArguments (ts : Tokens) : Reads Blames (fun args => ∀ arg ∈ args, arg.IsChecked) ts (readMoreArguments n ts)

section Operands
variable {n : Nat} (parts : OperandsRead n)
include parts

private theorem readOperand_succ (ts : Tokens) : Reads Blames Expr.IsChecked ts (readOperand (n + 1) ts) := by
  rw [readOperand]
  split
  case h_1 | h_2 => exact .ok (Expr.isChecked_field _) ts.isRestOf_tail
  case h_3 | h_4 => exact .ok (.literal _) ts.isRestOf_tail
  case h_5 => exact readNegative_reads ts
  case h_6 =>
    split
    next => exact readWord_reads _ ts
    next inside hopen =>
      have hinside := (Tokens.isRestOf_eat? hopen).trans ts.isRestOf_tail
      split
      next => exact .error (.refl ts) (.inl rfl)
      next f hf =>
        refine ((parts.arguments inside).after hinside).bind fun args after hargs hafter => ?_
        dsimp only
        split
        next haccepts =>
          obtain ⟨enough, notMore⟩ := Function.accepts_iff.mp haccepts
          exact .ok (.call enough notMore hargs) hafter
        next => exact fail_reads (.refl ts) _
  case h_7 => exact fail_reads (.refl ts) _

private theorem readArguments_succ (ts : Tokens) :
    Reads Blames (fun args => ∀ arg ∈ args, arg.IsChecked) ts (readArguments (n + 1) ts) := by
  rw [readArguments]
  split
  next after hclose => exact .ok (List.forall_mem_nil _) (Tokens.isRestOf_eat? hclose)
  next => exact parts.moreArguments ts

private theorem readMoreArguments_succ (ts : Tokens) :
    Reads Blames (fun args => ∀ arg ∈ args, arg.IsChecked) ts (readMoreArguments (n + 1) ts) := by
  rw [readMoreArguments]
  refine (parts.operand ts).bind fun arg us harg hus => ?_
  dsimp only
  split
  next after hclose => exact .ok (List.forall_mem_singleton.mpr harg) ((Tokens.isRestOf_eat? hclose).trans hus)
  next =>
    refine (expect_passes us _).bind hus fun vs hvs => ?_
    exact ((parts.moreArguments vs).after hvs).bind fun more ws hmore hws =>
      .ok (List.forall_mem_cons.mpr ⟨harg, hmore⟩) hws

end Operands

private theorem operandsRead (n : Nat) : OperandsRead n := by
  induction n with
  | zero =>
    exact ⟨fun ts => fail_reads (.refl ts) _, fun ts => fail_reads (.refl ts) _, fun ts => fail_reads (.refl ts) _⟩
  | succ n ih => exact ⟨readOperand_succ ih, readArguments_succ ih, readMoreArguments_succ ih⟩

private theorem readExpr_reads (ts : Tokens) : Reads Blames Expr.IsChecked ts (readExpr ts) :=
  (operandsRead _).operand ts

private theorem readArgumentList_reads (ts : Tokens) :
    Reads Blames (fun args => ∀ arg ∈ args, arg.IsChecked) ts (readArgumentList ts) := (operandsRead _).arguments ts

end Expressions

section Columns

private theorem isRestOf_readAlias? {ts us : Tokens} {name : String} (h : readAlias? ts = some (name, us)) :
    us.IsRestOf ts := by
  obtain ⟨found, -, h⟩ := Option.bind_eq_some_iff.mp h
  obtain ⟨after, hequals, h⟩ := Option.bind_eq_some_iff.mp h
  cases h
  exact (Tokens.isRestOf_eat? hequals).trans ts.isRestOf_tail

private theorem readAssignment_reads (ts : Tokens) :
    Reads Blames (fun a => a.expr.IsChecked) ts (readAssignment ts) := by
  unfold readAssignment
  split
  next after halias =>
    exact ((readExpr_reads after).after (isRestOf_readAlias? halias)).bind fun e us he hus => .ok he hus
  next => exact (readExpr_reads ts).bind fun e us he hus => .ok he hus

private theorem readLabelled_reads (label : Option String) (ts : Tokens) :
    Reads Blames Aggregate.IsChecked ts (readLabelled label ts) := by
  unfold readLabelled
  split
  · split
    · exact .error (.refl ts) (.inl rfl)
    · refine (expect_passes _ _).bind ts.isRestOf_tail fun inside hinside => ?_
      refine ((readArgumentList_reads inside).after hinside).bind fun args after hargs hafter => ?_
      dsimp only
      split
      · exact .ok ⟨fun _ => rfl, nofun⟩ hafter
      · refine .ok ⟨nofun, ?_⟩ hafter
        rintro _ ⟨⟩
        exact List.forall_mem_singleton.mp hargs
      · exact fail_reads (.refl ts) _
  · exact fail_reads (.refl ts) _

private theorem readAggregate_reads (ts : Tokens) : Reads Blames Aggregate.IsChecked ts (readAggregate ts) := by
  unfold readAggregate
  split
  next after halias => exact (readLabelled_reads _ after).after (isRestOf_readAlias? halias)
  next => exact readLabelled_reads none ts

private theorem readSummarize_reads (ts : Tokens) : Reads Blames Stage.IsChecked ts (readSummarize ts) := by
  refine (readAll_reads readAggregate_reads ts).bind fun aggregates us haggregates hus => ?_
  dsimp only
  split
  next => exact .ok haggregates hus
  next after hby =>
    exact ((readAll_reads readField_reads after).after ((Tokens.isRestOf_eatWord? hby).trans hus)).bind
      fun _ vs _ hvs => .ok haggregates hvs

private theorem readSortKey_reads (ts : Tokens) : Reads Blames (fun _ => True) ts (readSortKey ts) := by
  refine (readField_reads ts).bind fun field us _ hus => ?_
  dsimp only
  split
  next after hdesc => exact .ok trivial ((Tokens.isRestOf_eatWord? hdesc).trans hus)
  next =>
    cases hasc : us.eatWord? "asc" with
    | none => exact .ok trivial hus
    | some after => exact .ok trivial ((Tokens.isRestOf_eatWord? hasc).trans hus)

private theorem readSortKeys_reads (name : String) (ts : Tokens) :
    Reads Blames Stage.IsChecked ts (readSortKeys name ts) := by
  unfold readSortKeys
  split
  next => exact fail_reads (.refl ts) _
  next after hby =>
    exact ((readAll_reads readSortKey_reads after).after (Tokens.isRestOf_eatWord? hby)).bind
      fun _ us _ hus => .ok trivial hus

end Columns

section Predicates

private theorem isRestOf_eatEither? {ts us : Tokens} {word symbol : String}
    (h : eatEither? ts word symbol = some us) : us.IsRestOf ts := by
  rcases Option.or_eq_some_iff.mp h with h | ⟨-, h⟩
  · exact Tokens.isRestOf_eatWord? h
  · exact Tokens.isRestOf_eat? h

private theorem readRelation_reads {left : Expr} (hleft : left.IsChecked) (negated : Bool) (ts : Tokens) :
    Reads Blames Predicate.IsChecked ts (readRelation left negated ts) := by
  unfold readRelation
  dsimp only
  split
  · refine (expect_passes _ _).bind ts.isRestOf_tail fun inside hinside => ?_
    exact ((readArgumentList_reads inside).after hinside).bind fun list us hlist hus => .ok ⟨hleft, hlist⟩ hus
  · split
    · exact fail_reads (.refl ts) _
    · split
      · exact .ok hleft (.refl ts)
      · refine ((readExpr_reads ts.tail).after ts.isRestOf_tail).bind fun right us hright hus => ?_
        refine .ok ?_ hus
        cases negated <;> exact ⟨hleft, hright⟩

private theorem readComparison_reads (ts : Tokens) : Reads Blames Predicate.IsChecked ts (readComparison ts) := by
  refine (readExpr_reads ts).bind fun left us hleft hus => ?_
  dsimp only
  split
  · exact (readRelation_reads hleft true us.tail).after (us.isRestOf_tail.trans hus)
  · exact (readRelation_reads hleft false us).after hus

structure ConditionsRead (n : Nat) : Prop where
  alternatives (ts : Tokens) : Reads Blames Predicate.IsChecked ts (readAlternatives n ts)
  moreAlternatives {left : Predicate} (checked : left.IsChecked) (ts : Tokens) :
    Reads Blames Predicate.IsChecked ts (readMoreAlternatives n left ts)
  conditions (ts : Tokens) : Reads Blames Predicate.IsChecked ts (readConditions n ts)
  moreConditions {left : Predicate} (checked : left.IsChecked) (ts : Tokens) :
    Reads Blames Predicate.IsChecked ts (readMoreConditions n left ts)
  condition (ts : Tokens) : Reads Blames Predicate.IsChecked ts (readCondition n ts)

section Conditions
variable {n : Nat} (parts : ConditionsRead n)
include parts

private theorem readAlternatives_succ (ts : Tokens) :
    Reads Blames Predicate.IsChecked ts (readAlternatives (n + 1) ts) := by
  rw [readAlternatives]
  exact (parts.conditions ts).bind fun left us hleft hus => (parts.moreAlternatives hleft us).after hus

private theorem readMoreAlternatives_succ {left : Predicate} (hleft : left.IsChecked) (ts : Tokens) :
    Reads Blames Predicate.IsChecked ts (readMoreAlternatives (n + 1) left ts) := by
  rw [readMoreAlternatives]
  split
  next => exact .ok hleft (.refl ts)
  next after hor =>
    refine ((parts.conditions after).after (isRestOf_eatEither? hor)).bind fun right us hright hus => ?_
    have hboth : (Predicate.or left right).IsChecked := ⟨hleft, hright⟩
    exact (parts.moreAlternatives hboth us).after hus

private theorem readConditions_succ (ts : Tokens) :
    Reads Blames Predicate.IsChecked ts (readConditions (n + 1) ts) := by
  rw [readConditions]
  exact (parts.condition ts).bind fun left us hleft hus => (parts.moreConditions hleft us).after hus

private theorem readMoreConditions_succ {left : Predicate} (hleft : left.IsChecked) (ts : Tokens) :
    Reads Blames Predicate.IsChecked ts (readMoreConditions (n + 1) left ts) := by
  rw [readMoreConditions]
  split
  next => exact .ok hleft (.refl ts)
  next after hand =>
    refine ((parts.condition after).after (isRestOf_eatEither? hand)).bind fun right us hright hus => ?_
    have hboth : (Predicate.and left right).IsChecked := ⟨hleft, hright⟩
    exact (parts.moreConditions hboth us).after hus

private theorem readCondition_succ (ts : Tokens) :
    Reads Blames Predicate.IsChecked ts (readCondition (n + 1) ts) := by
  rw [readCondition]
  split
  next after hnot =>
    exact ((parts.condition after).after (isRestOf_eatEither? hnot)).bind fun inner us hinner hus => .ok hinner hus
  next =>
    split
    next inside hopen =>
      refine ((parts.alternatives inside).after (Tokens.isRestOf_eat? hopen)).bind fun inner us hinner hus => ?_
      exact (expect_passes us _).bind hus fun vs hvs => .ok hinner hvs
    next => exact readComparison_reads ts

end Conditions

private theorem conditionsRead (n : Nat) : ConditionsRead n := by
  induction n with
  | zero =>
    have hfail (ts : Tokens) : Reads Blames Predicate.IsChecked ts (fail ts.position (.noExpression ts.describe)) :=
      fail_reads (.refl ts) _
    exact ⟨hfail, fun _ => hfail, hfail, fun _ => hfail, hfail⟩
  | succ n ih =>
    exact ⟨readAlternatives_succ ih, readMoreAlternatives_succ ih, readConditions_succ ih, readMoreConditions_succ ih,
      readCondition_succ ih⟩

private theorem readPredicate_reads (ts : Tokens) : Reads Blames Predicate.IsChecked ts (readPredicate ts) :=
  (conditionsRead _).alternatives ts

end Predicates

section Options

private theorem dropHyphens_suffix (lexemes : List Lexeme) : dropHyphens lexemes <:+ lexemes := by
  induction lexemes with
  | nil => exact List.suffix_refl _
  | cons first rest ih =>
    rw [dropHyphens]
    split
    · exact ih.trans (List.suffix_cons _ _)
    · exact List.suffix_refl _

private theorem readOptionValue_reads (key : String) (ts : Tokens) :
    Reads Blames (fun _ => True) ts (readOptionValue key ts) := by
  unfold readOptionValue
  split
  next => exact .ok trivial (.refl ts)
  next after hequals =>
    have hafter := Tokens.isRestOf_eat? hequals
    split
    · exact .ok trivial (after.isRestOf_tail.trans hafter)
    · exact fail_reads hafter _

private theorem readOptions_reads (n : Nat) (o : Delimited.Options) (ts : Tokens) :
    Reads Blames (fun _ => True) ts (readOptions n o ts) := by
  induction n generalizing o ts with
  | zero => exact fail_reads (.refl ts) _
  | succ n ih =>
    have hdropped : (⟨dropHyphens ts.rest, ts.finish⟩ : Tokens).IsRestOf ts := ⟨dropHyphens_suffix ts.rest, rfl⟩
    unfold readOptions
    dsimp only
    split
    next name _ =>
      refine ((readOptionValue_reads _ _).after ((Tokens.isRestOf_tail _).trans hdropped)).bind
        fun value after _ hafter => ?_
      dsimp only
      cases setOption o (Unicode.lower name) value with
      | error fault => exact .error hdropped (.inl rfl)
      | ok o => exact (ih o after).after hafter
    next => exact .ok trivial hdropped

end Options

section Stages

private theorem readCount_reads (ts : Tokens) : Reads Blames (fun _ => True) ts (readCount ts) := by
  unfold readCount
  split
  · split
    · exact .ok trivial ts.isRestOf_tail
    · exact fail_reads (.refl ts) _
  · exact fail_reads (.refl ts) _

/-- An expression in quotes, which is read on its own. -/
theorem readExpression_reads (ts : Tokens) :
    Reads Blames (fun e => e.root.IsKnown) ts (readExpression ts) := by
  have herror {text : String} {error : Jsonata.Error}
      (h : ts.peek? = some (.quoted text) ∨ ts.peek? = some (.singleQuoted text))
      (hparse : Jsonata.Expression.parse text = .error error) :
      Reads Blames (fun e : Jsonata.Expression => e.root.IsKnown) ts
        (fail (ts.position + 1 + error.position) (.jsonata error.fault)) :=
    .error (.refl ts) (.inr ⟨text, error, h, hparse, rfl⟩)
  unfold readExpression
  split
  next text h =>
    split
    next e hparse => exact .ok (Jsonata.isKnown_of_parse hparse) ts.isRestOf_tail
    next error hparse => exact herror (.inr h) hparse
  next text h =>
    split
    next e hparse => exact .ok (Jsonata.isKnown_of_parse hparse) ts.isRestOf_tail
    next error hparse => exact herror (.inl h) hparse
  next => exact fail_reads (.refl ts) _

private theorem readVerb_reads (defaults : Delimited.Options) (name : String) (verb : Verb) (ts : Tokens) :
    Reads Blames Stage.IsChecked ts (readVerb defaults name verb ts) := by
  cases verb with
  | parseJson | parseMarkup _ | parseYaml | count => exact .ok trivial (.refl ts)
  | parseCsv => exact (readOptions_reads _ defaults ts).bind fun _ _ _ hus => .ok trivial hus
  | scope | mvExpand => exact (readField_reads ts).bind fun _ _ _ hus => .ok trivial hus
  | project | extend =>
    exact (readAll_reads readAssignment_reads ts).bind fun _ _ hassignments hus => .ok hassignments hus
  | projectAway => exact (readAll_reads readField_reads ts).bind fun _ _ _ hus => .ok trivial hus
  | summarize => exact readSummarize_reads ts
  | orderBy => exact readSortKeys_reads name ts
  | limit => exact (readCount_reads ts).bind fun _ _ _ hus => .ok trivial hus
  | filter => exact (readPredicate_reads ts).bind fun _ _ hpredicate hus => .ok hpredicate hus
  | jsonata => exact (readExpression_reads ts).bind fun _ _ he hus => .ok he hus

private theorem readStage_reads (defaults : Delimited.Options) (ts : Tokens) :
    Reads Blames Stage.IsChecked ts (readStage defaults ts) := by
  unfold readStage
  split
  · split
    · exact (readVerb_reads _ _ _ _).after ts.isRestOf_tail
    · exact .error (.refl ts) (.inl rfl)
  · exact fail_reads (.refl ts) _

/-- A stage takes its verb at least. -/
theorem readStage_takes {defaults : Delimited.Options} {ts after : Tokens} {stage : Stage}
    (h : readStage defaults ts = .ok (stage, after)) : after.rest.length < ts.rest.length := by
  obtain ⟨_ | ⟨first, rest⟩, finish⟩ := ts
  · contradiction
  · unfold readStage at h
    split at h
    · split at h
      · exact Nat.lt_succ_of_le (Settles.of_eq_ok (readVerb_reads _ _ _ _) h).2.length_le
      · contradiction
    · contradiction

private theorem readStages_settles (defaults : Delimited.Options) (n : Nat) (ts : Tokens) :
    Settles Blames (fun stages => ∀ stage ∈ stages, stage.IsChecked) ts (readStages defaults n ts) := by
  induction n generalizing ts with
  | zero => exact .error (.refl ts) (.inl rfl)
  | succ n ih =>
    rw [readStages]
    split
    · exact List.forall_mem_nil _
    · refine Settles.bind (readStage_reads defaults ts) fun (stage, us) ⟨hstage, hus⟩ => ?_
      dsimp only
      split
      · exact List.forall_mem_singleton.mpr hstage
      · split
        next => exact .error hus (.inl rfl)
        next vs hbar =>
          refine ((ih vs).after ((Tokens.isRestOf_eat? hbar).trans hus)).bind fun more hmore => ?_
          exact List.forall_mem_cons.mpr ⟨hstage, hmore⟩

/-- Stages are read from the tokens of their text. -/
theorem parseAll_settles (defaults : Delimited.Options) {source : String} {ts : Tokens}
    (h : Token.stream source true = .ok ts) :
    Settles Blames (fun stages => ∀ stage ∈ stages, stage.IsChecked) ts (Stage.parseAll defaults source) := by
  have hparse : Stage.parseAll defaults source = readStages defaults (ts.rest.length + 1) ts := by
    rw [Stage.parseAll, h]
    rfl
  rw [hparse]
  exact readStages_settles defaults _ ts

end Stages
end Tabulate.Pipeline
