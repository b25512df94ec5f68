import Tabulate.Pipeline.Parser
import Tabulate.Proofs.Token.Spelling

/-! How conditions are written: `not` binds its operand more tightly than `and` does, and `and` more
tightly than `or`. -/
namespace Tabulate.Pipeline
open Token (HasSpelling Spelled)

mutual

inductive WritesExpr : Expr → List Token → Prop
  | field (path : String) : WritesExpr (.field path) [.quoted path]
  | null : WritesExpr (.literal .null) [.ident "null"]
  | true : WritesExpr (.literal (.bool true)) [.ident "true"]
  | false : WritesExpr (.literal (.bool false)) [.ident "false"]
  | string (text : String) : WritesExpr (.literal (.string text)) [.singleQuoted text]
  | integer (i : Int) : WritesExpr (.literal (.number (.ofInt i))) (Token.integer i)
  | call {f : Function} {args inner} (accepts : f.accepts args.length = true)
      (writesArgs : WritesArguments args inner) :
      WritesExpr (.call f args) (.ident f.name :: .symbol "(" :: (inner ++ [.symbol ")"]))

inductive WritesArguments : List Expr → List Token → Prop
  | nil : WritesArguments [] []
  | last {arg tokens} (writes : WritesExpr arg tokens) : WritesArguments [arg] tokens
  | more {arg next args tokens rest} (writes : WritesExpr arg tokens)
      (writesMore : WritesArguments (next :: args) rest) :
      WritesArguments (arg :: next :: args) (tokens ++ .symbol "," :: rest)

end

def CompareOp.ofToken? : Token → Option CompareOp
  | .symbol symbol => ofSymbol? symbol
  | .ident word => ofWord? word
  | _ => none

/-- The tokens of a condition without others in it. The operators that are words, and `in`, may have the
mark of a negation before them. -/
inductive WritesRelation : Predicate → List Token → Prop
  | compare {op left right token before after} (isOp : CompareOp.ofToken? token = some op)
      (writesLeft : WritesExpr left before) (writesRight : WritesExpr right after) :
      WritesRelation (.compare left op right) (before ++ token :: after)
  | notCompare {op left right word before after} (isOp : CompareOp.ofWord? word = some op)
      (writesLeft : WritesExpr left before) (writesRight : WritesExpr right after) :
      WritesRelation (.not (.compare left op right)) (before ++ .symbol "!" :: .ident word :: after)
  | isIn {expr list before inner} (writesExpr : WritesExpr expr before)
      (writesList : WritesArguments list inner) :
      WritesRelation (.isIn expr list false)
        (before ++ .ident "in" :: .symbol "(" :: (inner ++ [.symbol ")"]))
  | notIn {expr list before inner} (writesExpr : WritesExpr expr before)
      (writesList : WritesArguments list inner) :
      WritesRelation (.isIn expr list true)
        (before ++ .symbol "!" :: .ident "in" :: .symbol "(" :: (inner ++ [.symbol ")"]))
  | truthy {expr tokens} (writes : WritesExpr expr tokens) : WritesRelation (.truthy expr) tokens

def orTokens : List Token := [.ident "or", .symbol "||"]

def andTokens : List Token := [.ident "and", .symbol "&&"]

def notTokens : List Token := [.ident "not", .symbol "!"]

mutual

inductive WritesAlternatives : Predicate → List Token → Prop
  | only {p tokens} (writes : WritesConditions p tokens) : WritesAlternatives p tokens
  | or {left right token before after} (isOr : token ∈ orTokens)
      (writesLeft : WritesAlternatives left before) (writesRight : WritesConditions right after) :
      WritesAlternatives (.or left right) (before ++ token :: after)

inductive WritesConditions : Predicate → List Token → Prop
  | only {p tokens} (writes : WritesCondition p tokens) : WritesConditions p tokens
  | and {left right token before after} (isAnd : token ∈ andTokens)
      (writesLeft : WritesConditions left before) (writesRight : WritesCondition right after) :
      WritesConditions (.and left right) (before ++ token :: after)

/-- The tokens of a negation, of a condition in parentheses or of one without others in it. -/
inductive WritesCondition : Predicate → List Token → Prop
  | relation {p tokens} (writes : WritesRelation p tokens) : WritesCondition p tokens
  | not {p token tokens} (isNot : token ∈ notTokens) (writes : WritesCondition p tokens) :
      WritesCondition (.not p) (token :: tokens)
  | parentheses {p inner} (writes : WritesAlternatives p inner) :
      WritesCondition p (.symbol "(" :: (inner ++ [.symbol ")"]))

end

/-- The expressions whose constants are null, truth values, texts and integers, and whose calls have as
many arguments as their functions accept. -/
inductive Expr.IsPlain : Expr → Prop
  | field (path : String) : IsPlain (.field path)
  | null : IsPlain (.literal .null)
  | bool (b : Bool) : IsPlain (.literal (.bool b))
  | string (text : String) : IsPlain (.literal (.string text))
  | integer (i : Int) : IsPlain (.literal (.number (.ofInt i)))
  | call {f : Function} {args} (accepts : f.accepts args.length = true) (plain : ∀ arg ∈ args, IsPlain arg) :
      IsPlain (.call f args)

inductive Predicate.IsPlain : Predicate → Prop
  | compare {left right} (op : CompareOp) (plainLeft : left.IsPlain) (plainRight : right.IsPlain) :
      IsPlain (.compare left op right)
  | isIn {expr list} (negated : Bool) (plainExpr : expr.IsPlain) (plainList : ∀ item ∈ list, Expr.IsPlain item) :
      IsPlain (.isIn expr list negated)
  | truthy {expr} (plain : expr.IsPlain) : IsPlain (.truthy expr)
  | and {left right} (plainLeft : IsPlain left) (plainRight : IsPlain right) : IsPlain (.and left right)
  | or {left right} (plainLeft : IsPlain left) (plainRight : IsPlain right) : IsPlain (.or left right)
  | not {inner} (plain : IsPlain inner) : IsPlain (.not inner)

section Existence
variable {e : Expr} {p : Predicate} {args : List Expr}

private theorem hasSpelling_functionName (f : Function) : HasSpelling true (.ident f.name) := by
  apply Token.hasSpelling_ident
  cases f with
  | trim ends => cases ends <;> decide
  | _ => decide

private theorem exists_writesArguments
    (h : ∀ arg ∈ args, ∃ tokens, Spelled true tokens ∧ WritesExpr arg tokens) :
    ∃ tokens, Spelled true tokens ∧ WritesArguments args tokens := by
  induction args with
  | nil => exact ⟨[], .nil, .nil⟩
  | cons arg args ih =>
    obtain ⟨⟨tokens, spelled, writes⟩, hargs⟩ := List.forall_mem_cons.mp h
    obtain ⟨more, spelledMore, writesMore⟩ := ih hargs
    cases args with
    | nil => exact ⟨tokens, spelled, .last writes⟩
    | cons next args => exact ⟨_, spelled.append (spelledMore.mark (by decide)), .more writes writesMore⟩

private theorem Expr.IsPlain.exists_writes (h : e.IsPlain) :
    ∃ tokens, Spelled true tokens ∧ WritesExpr e tokens := by
  induction h with
  | field path => exact ⟨_, Spelled.nil.cons (Token.hasSpelling_quoted path), .field path⟩
  | null => exact ⟨_, Spelled.nil.cons (Token.hasSpelling_ident (by decide)), .null⟩
  | bool b =>
    cases b with
    | true => exact ⟨_, Spelled.nil.cons (Token.hasSpelling_ident (by decide)), .true⟩
    | false => exact ⟨_, Spelled.nil.cons (Token.hasSpelling_ident (by decide)), .false⟩
  | string text => exact ⟨_, Spelled.nil.cons (Token.hasSpelling_singleQuoted text), .string text⟩
  | integer i => exact ⟨_, .integer i, .integer i⟩
  | @call f args accepts _ ih =>
    obtain ⟨inner, spelled, writes⟩ := exists_writesArguments ih
    exact ⟨_, (spelled.between (by decide) (by decide)).cons (hasSpelling_functionName f), .call accepts writes⟩

private theorem exists_writesList (h : ∀ arg ∈ args, arg.IsPlain) :
    ∃ tokens, Spelled true tokens ∧ WritesArguments args tokens :=
  exists_writesArguments fun arg mem => (h arg mem).exists_writes

def CompareOp.token : CompareOp → Token
  | eq => .symbol "=="
  | ne => .symbol "!="
  | gt => .symbol ">"
  | ge => .symbol ">="
  | lt => .symbol "<"
  | le => .symbol "<="
  | contains => .ident "contains"
  | startsWith => .ident "startswith"
  | endsWith => .ident "endswith"

theorem CompareOp.ofToken?_token (op : CompareOp) : ofToken? op.token = some op := by
  cases op <;> rfl

private theorem CompareOp.hasSpelling_token (op : CompareOp) : HasSpelling true op.token := by
  cases op with
  | contains | startsWith | endsWith => exact Token.hasSpelling_ident (by decide)
  | _ => exact Token.hasSpelling_symbol (by decide)

private theorem WritesAlternatives.exists_condition {tokens : List Token} (spelled : Spelled true tokens)
    (writes : WritesAlternatives p tokens) : ∃ tokens, Spelled true tokens ∧ WritesCondition p tokens :=
  ⟨_, spelled.between (by decide) (by decide), .parentheses writes⟩

/-- Every condition has a text. -/
theorem Predicate.IsPlain.exists_writes (h : p.IsPlain) :
    ∃ tokens, Spelled true tokens ∧ WritesCondition p tokens := by
  induction h with
  | compare op plainLeft plainRight =>
    obtain ⟨before, spelledLeft, writesLeft⟩ := plainLeft.exists_writes
    obtain ⟨after, spelledRight, writesRight⟩ := plainRight.exists_writes
    refine ⟨_, ?_, .relation (.compare op.ofToken?_token writesLeft writesRight)⟩
    exact spelledLeft.append (spelledRight.cons op.hasSpelling_token)
  | isIn negated plainExpr plainList =>
    obtain ⟨before, spelledExpr, writesExpr⟩ := plainExpr.exists_writes
    obtain ⟨inner, spelledList, writesList⟩ := exists_writesList plainList
    have spelled : Spelled true (.ident "in" :: .symbol "(" :: (inner ++ [.symbol ")"])) :=
      (spelledList.between (by decide) (by decide)).cons (Token.hasSpelling_ident (by decide))
    cases negated with
    | false => exact ⟨_, spelledExpr.append spelled, .relation (.isIn writesExpr writesList)⟩
    | true =>
      exact ⟨_, spelledExpr.append (spelled.mark (by decide)), .relation (.notIn writesExpr writesList)⟩
  | truthy plain =>
    obtain ⟨tokens, spelled, writes⟩ := plain.exists_writes
    exact ⟨tokens, spelled, .relation (.truthy writes)⟩
  | and _ _ ihLeft ihRight =>
    obtain ⟨before, spelledLeft, writesLeft⟩ := ihLeft
    obtain ⟨after, spelledRight, writesRight⟩ := ihRight
    have writes := WritesConditions.and (List.mem_cons_self) (.only writesLeft) writesRight
    have spelled := spelledRight.cons (Token.hasSpelling_ident (by decide : Token.isName "and" = true))
    exact WritesAlternatives.exists_condition (spelledLeft.append spelled) (.only writes)
  | or _ _ ihLeft ihRight =>
    obtain ⟨before, spelledLeft, writesLeft⟩ := ihLeft
    obtain ⟨after, spelledRight, writesRight⟩ := ihRight
    have writes := WritesAlternatives.or (List.mem_cons_self) (.only (.only writesLeft)) (.only writesRight)
    have spelled := spelledRight.cons (Token.hasSpelling_ident (by decide : Token.isName "or" = true))
    exact WritesAlternatives.exists_condition (spelledLeft.append spelled) writes
  | not _ ih =>
    obtain ⟨tokens, spelled, writes⟩ := ih
    exact ⟨_, spelled.cons (Token.hasSpelling_ident (by decide)), .not List.mem_cons_self writes⟩

end Existence

end Tabulate.Pipeline
