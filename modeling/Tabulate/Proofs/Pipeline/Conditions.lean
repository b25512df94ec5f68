import Tabulate.Proofs.Pipeline.Writing

/-! The parser finds in every writing of a condition that condition. -/
namespace Tabulate.Pipeline

section Tokens
variable {ts : Tokens} {token : Token} {rest more : List Token} {symbol word : String}

theorem expect_of_tokens (h : ts.tokens = .symbol symbol :: more) : expect ts symbol = .ok ts.tail := by
  rw [expect, Tokens.eat?_of_tokens h]

private theorem nextWord?_of_tokens (h : ts.tokens = .ident word :: more) :
    nextWord? ts = some (Unicode.lower word) := by
  rw [nextWord?, Tokens.peek?_of_tokens h]

private theorem nextWord?_of_symbol (h : ts.tokens = .symbol symbol :: more) : nextWord? ts = none := by
  rw [nextWord?, Tokens.peek?_of_tokens h]

private theorem nextSymbol?_of_tokens (h : ts.tokens = .symbol symbol :: more) : nextSymbol? ts = some symbol := by
  rw [nextSymbol?, Tokens.peek?_of_tokens h]

def isEither (word symbol : String) : Token → Bool
  | .ident name => sameWord name word
  | .symbol other => other == symbol
  | _ => false

private theorem eatEither?_of_tokens (h : ts.tokens = token :: more) (either : isEither word symbol token = true) :
    eatEither? ts word symbol = some ts.tail := by
  cases token with
  | ident name => rw [eatEither?, Tokens.eatWord?_of_tokens h either, Option.some_or]
  | symbol other =>
    obtain rfl := eq_of_beq either
    rw [eatEither?, Tokens.eat?_of_tokens h, Tokens.eatWord?_of_ne (by simp [h]), Option.none_or]
  | _ => exact absurd either Bool.false_ne_true

private theorem eatEither?_of_ne (h : ∀ token ∈ ts.tokens.head?, isEither word symbol token = false) :
    eatEither? ts word symbol = none := by
  have hword : ts.eatWord? word = none := Tokens.eatWord?_of_ne fun name hname => h _ hname
  have hsymbol : ts.eat? symbol = none := by
    apply Tokens.eat?_of_ne
    intro heq
    have := h _ heq
    simp [isEither] at this
  rw [eatEither?, hword, hsymbol, Option.none_or]

end Tokens

/-- The tokens that an expression may start with: none that starts another condition or ends a list. -/
def Starts (token : Token) : Prop :=
  isEither "not" "!" token = false ∧ token ≠ .symbol "(" ∧ token ≠ .symbol ")"

section Starts
variable {e : Expr} {args : List Expr} {tokens before : List Token}

theorem WritesExpr.starts (h : WritesExpr e tokens) :
    ∃ first more, tokens = first :: more ∧ Starts first := by
  cases h with
  | field path => exact ⟨_, _, rfl, rfl, nofun, nofun⟩
  | null | true | false => exact ⟨_, _, rfl, by decide, nofun, nofun⟩
  | string text => exact ⟨_, _, rfl, rfl, nofun, nofun⟩
  | integer i =>
    cases i with
    | ofNat n => exact ⟨_, _, rfl, rfl, nofun, nofun⟩
    | negSucc n => exact ⟨_, _, rfl, by decide, by decide, by decide⟩
  | @call f _ _ _ _ =>
    refine ⟨_, _, rfl, ?_, nofun, nofun⟩
    cases f with
    | trim ends => cases ends <;> decide
    | _ => decide

theorem WritesArguments.head?_ne (h : WritesArguments args tokens) (hargs : args ≠ []) (rest : List Token) :
    (tokens ++ rest).head? ≠ some (.symbol ")") := by
  cases h with
  | nil => exact absurd rfl hargs
  | last writes =>
    obtain ⟨first, more, rfl, starts⟩ := writes.starts
    exact fun heq => starts.2.2 (Option.some.inj heq)
  | more writes _ =>
    obtain ⟨first, more, rfl, starts⟩ := writes.starts
    exact fun heq => starts.2.2 (Option.some.inj heq)

end Starts

section Operands
variable {fuel : Nat} {ts : Tokens} {rest more : List Token}

private theorem readOperand_word {name : String} (h : ts.tokens = .ident name :: rest)
    (ends : rest.head? ≠ some (.symbol "(")) : readOperand (fuel + 1) ts = readWord name ts := by
  have heat : ts.tail.eat? "(" = none := by
    apply Tokens.eat?_of_ne
    rwa [Tokens.tokens_tail h]
  simp only [readOperand, Tokens.peek?_of_tokens h, heat]

private theorem readOperand_integer {i : Int} (h : ts.tokens = Token.integer i ++ rest) :
    Finds (readOperand (fuel + 1) ts) (· = .literal (.number (.ofInt i))) rest := by
  obtain ⟨n, rfl, hi⟩ | ⟨n, pos, rfl, hi⟩ := Token.integer_cases i
  · rw [hi] at h
    simp only [readOperand, Tokens.peek?_of_tokens h]
    exact .ok (by rw [Number.ofNat_eq_ofInt]) (Tokens.tokens_tail h)
  · rw [hi] at h
    have htail := Tokens.tokens_tail h
    simp only [readOperand, Tokens.peek?_of_tokens h, readNegative, Tokens.eat?_of_tokens h,
      Tokens.peek?_of_tokens htail]
    exact .ok (by rw [Number.neg_ofNat pos]) (Tokens.tokens_tail htail)

theorem readOperand_call {f : Function} (h : ts.tokens = .ident f.name :: .symbol "(" :: more) :
    readOperand (fuel + 1) ts = (do
      let (args, after) ← readArguments fuel ts.tail.tail
      if f.accepts args.length then return (.call f args, after)
      else fail ts.position (.argumentCount f.name args.length)) := by
  have heat := Tokens.eat?_of_tokens (Tokens.tokens_tail h)
  have hname : Function.ofName? f.name = some f := by
    cases f with
    | trim ends => cases ends <;> decide
    | _ => decide
  simp only [readOperand, Tokens.peek?_of_tokens h, heat, hname]

end Operands

def FindsArguments (args : List Expr) (tokens : List Token) : Prop :=
  ∀ {fuel : Nat} {ts : Tokens} {rest : List Token}, ts.tokens = tokens ++ .symbol ")" :: rest →
    4 * (tokens ++ .symbol ")" :: rest).length + 3 ≤ fuel →
      Finds (readMoreArguments fuel ts) (· = args) rest

private theorem finds_arguments {args : List Expr} {tokens rest : List Token} {ts : Tokens} {fuel : Nat}
    (writes : WritesArguments args tokens) (h : args ≠ [] → FindsArguments args tokens)
    (hts : ts.tokens = tokens ++ .symbol ")" :: rest)
    (enough : 4 * (tokens ++ .symbol ")" :: rest).length + 4 ≤ fuel) :
    Finds (readArguments fuel ts) (· = args) rest := by
  obtain ⟨steps, rfl, hsteps⟩ := exists_step enough
  rw [readArguments]
  by_cases hargs : args = []
  · subst hargs
    cases writes
    rw [Tokens.eat?_of_tokens hts]
    exact .ok rfl (Tokens.tokens_tail hts)
  · have hclose : ts.eat? ")" = none := by
      apply Tokens.eat?_of_ne
      rw [hts]
      exact writes.head?_ne hargs _
    rw [hclose]
    exact h hargs hts hsteps

mutual

theorem WritesExpr.finds {e : Expr} {tokens : List Token} : WritesExpr e tokens →
    ∀ {fuel : Nat} {ts : Tokens} {rest : List Token}, ts.tokens = tokens ++ rest →
      rest.head? ≠ some (.symbol "(") → 4 * (tokens ++ rest).length + 2 ≤ fuel →
        Finds (readOperand fuel ts) (· = e) rest
  | .field path | .string text => by
    intro hts _ enough
    obtain ⟨steps, rfl, -⟩ := exists_step enough
    simp only [readOperand, Tokens.peek?_of_tokens hts]
    exact .ok rfl (Tokens.tokens_tail hts)
  | .null | .true | .false => by
    intro hts ends enough
    obtain ⟨steps, rfl, -⟩ := exists_step enough
    rw [readOperand_word hts ends]
    exact .ok rfl (Tokens.tokens_tail hts)
  | .integer i => by
    intro hts _ enough
    obtain ⟨steps, rfl, -⟩ := exists_step enough
    exact readOperand_integer hts
  | .call accepts args => by
    intro hts _ enough
    simp only [List.append_assoc, List.cons_append, List.nil_append] at hts enough
    obtain ⟨steps, rfl, hsteps⟩ := exists_step enough
    rw [readOperand_call hts]
    rw [List.length_cons, List.length_cons] at hsteps
    have hargs := Tokens.tokens_tail (Tokens.tokens_tail hts)
    apply (finds_arguments args args.finds hargs (by omega)).bind
    rintro _ us rfl hus
    simp only [accepts, if_true]
    exact .ok rfl hus

theorem WritesArguments.finds {args : List Expr} {tokens : List Token} : WritesArguments args tokens →
    args ≠ [] → FindsArguments args tokens
  | .nil => fun h => absurd rfl h
  | .last arg => by
    intro _ fuel ts rest hts enough
    obtain ⟨steps, rfl, hsteps⟩ := exists_step enough
    rw [readMoreArguments]
    apply (arg.finds hts (by simp) hsteps).bind
    rintro _ us rfl hus
    simp only [Tokens.eat?_of_tokens hus]
    exact .ok rfl (Tokens.tokens_tail hus)
  | .more arg more => by
    intro _ fuel ts rest hts enough
    rw [List.append_assoc, List.cons_append] at hts enough
    obtain ⟨steps, rfl, hsteps⟩ := exists_step enough
    rw [readMoreArguments]
    apply (arg.finds hts (by simp) hsteps).bind
    rintro _ us rfl hus
    have hclose : us.eat? ")" = none := Tokens.eat?_of_ne (by simp [hus])
    simp only [hclose, expect_of_tokens hus]
    rw [List.length_append, List.length_cons] at enough
    apply (more.finds (List.cons_ne_nil _ _) (Tokens.tokens_tail hus) (by omega)).bind
    rintro _ vs rfl hvs
    exact .ok rfl hvs

end

section Whole
variable {e : Expr} {args : List Expr} {tokens rest : List Token} {ts : Tokens}

theorem WritesExpr.readExpr (h : WritesExpr e tokens) (hts : ts.tokens = tokens ++ rest)
    (ends : rest.head? ≠ some (.symbol "(")) : Finds (readExpr ts) (· = e) rest := by
  apply h.finds hts ends
  rw [← hts, Tokens.length_tokens]
  omega

theorem WritesArguments.readArgumentList (h : WritesArguments args tokens)
    (hts : ts.tokens = tokens ++ .symbol ")" :: rest) : Finds (readArgumentList ts) (· = args) rest := by
  apply finds_arguments h h.finds hts
  rw [← hts, Tokens.length_tokens]

end Whole

def joints : List Token := .symbol ")" :: (orTokens ++ andTokens)

section Relations
variable {left right : Expr} {op : CompareOp} {args : List Expr} {token : Token} {word : String}
  {rest inner more : List Token} {ts : Tokens} {negated : Bool}

private theorem ofWord?_cases (h : CompareOp.ofWord? word = some op) :
    word = "contains" ∨ word = "startswith" ∨ word = "endswith" := by
  unfold CompareOp.ofWord? at h
  split at h
  · exact .inl rfl
  · exact .inr (.inl rfl)
  · exact .inr (.inr rfl)
  · contradiction

private theorem lower_of_ofWord? (h : CompareOp.ofWord? word = some op) :
    Unicode.lower word = word ∧ word ≠ "in" := by
  rcases ofWord?_cases h with rfl | rfl | rfl <;> exact ⟨by decide, by decide⟩

private theorem readRelation_word (isOp : CompareOp.ofWord? word = some op) (h : ts.tokens = .ident word :: more) :
    readRelation left negated ts = (do
      let (right, ts) ← readExpr ts.tail
      let compared := Predicate.compare left op right
      return (if negated then .not compared else compared, ts)) := by
  obtain ⟨hlower, hin⟩ := lower_of_ofWord? isOp
  have hword := nextWord?_of_tokens h
  rw [hlower] at hword
  have hne : ¬ (some word = some "in") := fun heq => hin (Option.some.inj heq)
  simp only [readRelation, hword, if_neg hne, Option.bind_some, isOp, Option.isNone_some, Bool.and_false,
    Bool.false_eq_true, if_false, Option.some_or]

private theorem readRelation_symbol {symbol : String} (isOp : CompareOp.ofSymbol? symbol = some op)
    (h : ts.tokens = .symbol symbol :: more) :
    readRelation left false ts = (do
      let (right, ts) ← readExpr ts.tail
      return (.compare left op right, ts)) := by
  simp only [readRelation, nextWord?_of_symbol h, nextSymbol?_of_tokens h, reduceCtorEq, if_false,
    Option.bind_none, Bool.false_and, Bool.false_eq_true, Option.none_or, Option.bind_some, isOp]

private theorem readRelation_operator (isOp : CompareOp.ofToken? token = some op) (h : ts.tokens = token :: more) :
    readRelation left false ts = (do
      let (right, ts) ← readExpr ts.tail
      return (.compare left op right, ts)) := by
  cases token with
  | ident word => exact readRelation_word isOp h
  | symbol symbol => exact readRelation_symbol isOp h
  | _ => contradiction

private theorem ne_of_ofToken? (isOp : CompareOp.ofToken? token = some op) :
    token ≠ .symbol "!" ∧ token ≠ .symbol "(" := by
  constructor
  · rintro rfl
    contradiction
  · rintro rfl
    contradiction

private theorem readRelation_in (h : ts.tokens = .ident "in" :: .symbol "(" :: more) :
    readRelation left negated ts = (do
      let (list, ts) ← readArgumentList ts.tail.tail
      return (.isIn left list negated, ts)) := by
  have hlower : Unicode.lower "in" = "in" := by decide
  have hexpect := expect_of_tokens (Tokens.tokens_tail h)
  simp only [readRelation, nextWord?_of_tokens h, hlower, if_true, hexpect, bind, Except.bind]

private theorem next_of_joint (h : Follows joints ts.tokens) :
    nextWord? ts ≠ some "in" ∧ (nextWord? ts).bind CompareOp.ofWord? = none ∧
      (nextSymbol? ts).bind CompareOp.ofSymbol? = none := by
  have hor : Unicode.lower "or" = "or" := by decide
  have hand : Unicode.lower "and" = "and" := by decide
  unfold nextWord? nextSymbol?
  rw [Tokens.peek?_eq_head?]
  cases hnext : ts.tokens.head? with
  | none => exact ⟨nofun, rfl, rfl⟩
  | some token =>
    have mem := h token hnext
    simp only [joints, orTokens, andTokens, List.cons_append, List.nil_append, List.mem_cons,
      List.not_mem_nil, or_false] at mem
    rcases mem with rfl | rfl | rfl | rfl | rfl
    · exact ⟨nofun, rfl, rfl⟩
    · simp only [hor]
      exact ⟨by decide, rfl, rfl⟩
    · exact ⟨nofun, rfl, rfl⟩
    · simp only [hand]
      exact ⟨by decide, rfl, rfl⟩
    · exact ⟨nofun, rfl, rfl⟩

/-- Where a condition ends, the expression is the condition. -/
theorem readRelation_truthy (h : Follows joints ts.tokens) :
    readRelation left false ts = .ok (.truthy left, ts) := by
  obtain ⟨hin, hword, hsymbol⟩ := next_of_joint h
  simp only [readRelation, hin, if_false, hword, hsymbol, Bool.false_and, Bool.false_eq_true, Option.or_none]
  rfl

private def readSecond (left : Expr) (ts : Tokens) : Except ParseError (Predicate × Tokens) :=
  if ts.startsWith "!" && startsWithName ts.tail then readRelation left true ts.tail
  else readRelation left false ts

private theorem readComparison_eq (ts : Tokens) :
    readComparison ts = (do
      let (left, ts) ← readExpr ts
      readSecond left ts) := rfl

private theorem readSecond_of_ne (h : ts.tokens.head? ≠ some (.symbol "!")) :
    readSecond left ts = readRelation left false ts := by
  have hmark : ts.startsWith "!" = false := by
    rwa [Tokens.startsWith, Tokens.peek?_eq_head?, beq_eq_false_iff_ne]
  rw [readSecond, hmark, Bool.false_and, if_neg Bool.false_ne_true]

private theorem readSecond_negated (h : ts.tokens = .symbol "!" :: .ident word :: more) :
    readSecond left ts = readRelation left true ts.tail := by
  have hmark : ts.startsWith "!" = true := by
    rw [Tokens.startsWith, Tokens.peek?_of_tokens h, beq_self_eq_true]
  have hname : startsWithName ts.tail = true := by
    rw [startsWithName, Tokens.peek?_of_tokens (Tokens.tokens_tail h)]
  rw [readSecond, hmark, hname, Bool.true_and, if_pos rfl]

/-- A condition without others in it is read where it ends at a joint. -/
theorem WritesRelation.finds {p : Predicate} {tokens : List Token} (h : WritesRelation p tokens)
    (hts : ts.tokens = tokens ++ rest) (ends : Follows joints rest) : Finds (readComparison ts) (· = p) rest := by
  have hparenthesis : rest.head? ≠ some (.symbol "(") := ends.head?_ne (by decide)
  rw [readComparison_eq]
  cases h with
  | compare isOp writesLeft writesRight =>
    obtain ⟨hmark, hopen⟩ := ne_of_ofToken? isOp
    rw [List.append_assoc, List.cons_append] at hts
    apply (writesLeft.readExpr hts (by simpa using hopen)).bind
    rintro _ us rfl hus
    have hplain : us.tokens.head? ≠ some (.symbol "!") := by simpa [hus] using hmark
    simp only [readSecond_of_ne hplain, readRelation_operator isOp hus]
    apply (writesRight.readExpr (Tokens.tokens_tail hus) hparenthesis).bind
    rintro _ vs rfl hvs
    exact .ok rfl hvs
  | notCompare isOp writesLeft writesRight =>
    rw [List.append_assoc, List.cons_append, List.cons_append] at hts
    apply (writesLeft.readExpr hts (by simp)).bind
    rintro _ us rfl hus
    have hword := Tokens.tokens_tail hus
    simp only [readSecond_negated hus, readRelation_word isOp hword]
    apply (writesRight.readExpr (Tokens.tokens_tail hword) hparenthesis).bind
    rintro _ vs rfl hvs
    exact .ok rfl hvs
  | isIn writesExpr writesList =>
    simp only [List.append_assoc, List.cons_append, List.nil_append] at hts
    apply (writesExpr.readExpr hts (by simp)).bind
    rintro _ us rfl hus
    have hplain : us.tokens.head? ≠ some (.symbol "!") := by simp [hus]
    simp only [readSecond_of_ne hplain, readRelation_in hus]
    apply (writesList.readArgumentList (Tokens.tokens_tail (Tokens.tokens_tail hus))).bind
    rintro _ vs rfl hvs
    exact .ok rfl hvs
  | notIn writesExpr writesList =>
    simp only [List.append_assoc, List.cons_append, List.nil_append] at hts
    apply (writesExpr.readExpr hts (by simp)).bind
    rintro _ us rfl hus
    have hword := Tokens.tokens_tail hus
    simp only [readSecond_negated hus, readRelation_in hword]
    apply (writesList.readArgumentList (Tokens.tokens_tail (Tokens.tokens_tail hword))).bind
    rintro _ vs rfl hvs
    exact .ok rfl hvs
  | truthy writes =>
    apply (writes.readExpr hts hparenthesis).bind
    rintro _ us rfl rfl
    simp only [readSecond_of_ne (ends.head?_ne (by decide)), readRelation_truthy ends]
    exact .ok rfl rfl

end Relations

section Conditions
variable {p : Predicate} {tokens rest more : List Token} {token : Token} {ts : Tokens} {fuel : Nat}

private theorem WritesRelation.starts (h : WritesRelation p tokens) :
    ∃ first more, tokens = first :: more ∧ Starts first := by
  have append {before : List Token} (h : ∃ first more, before = first :: more ∧ Starts first) (after : List Token) :
      ∃ first more, before ++ after = first :: more ∧ Starts first := by
    obtain ⟨first, more, rfl, starts⟩ := h
    exact ⟨first, more ++ after, rfl, starts⟩
  cases h with
  | compare _ writesLeft _ => exact append writesLeft.starts _
  | notCompare _ writesLeft _ => exact append writesLeft.starts _
  | isIn writesExpr _ => exact append writesExpr.starts _
  | notIn writesExpr _ => exact append writesExpr.starts _
  | truthy writes => exact writes.starts

private theorem readCondition_relation (starts : Starts token) (h : ts.tokens = token :: more) :
    readCondition (fuel + 1) ts = readComparison ts := by
  have hnot : eatEither? ts "not" "!" = none := by
    apply eatEither?_of_ne
    rw [h]
    rintro _ ⟨⟩
    exact starts.1
  have hopen : ts.eat? "(" = none := by
    apply Tokens.eat?_of_ne
    rw [h]
    exact fun heq => starts.2.1 (Option.some.inj heq)
  simp only [readCondition, hnot, hopen]

private theorem readCondition_not (isNot : token ∈ notTokens) (h : ts.tokens = token :: more) :
    readCondition (fuel + 1) ts = (do
      let (inner, ts) ← readCondition fuel ts.tail
      return (.not inner, ts)) := by
  have hall : ∀ token ∈ notTokens, isEither "not" "!" token = true := by decide
  simp only [readCondition, eatEither?_of_tokens h (hall token isNot)]

private theorem readCondition_parenthesis (h : ts.tokens = .symbol "(" :: more) :
    readCondition (fuel + 1) ts = (do
      let (inner, ts) ← readAlternatives fuel ts.tail
      return (inner, ← expect ts ")")) := by
  have hnot : eatEither? ts "not" "!" = none := by
    apply eatEither?_of_ne
    rw [h]
    rintro _ ⟨⟩
    decide
  simp only [readCondition, hnot, Tokens.eat?_of_tokens h]

private theorem readMoreAlternatives_or (isOr : token ∈ orTokens) (h : ts.tokens = token :: more) :
    readMoreAlternatives (fuel + 1) p ts = (do
      let (right, ts) ← readConditions fuel ts.tail
      readMoreAlternatives fuel (.or p right) ts) := by
  have hall : ∀ token ∈ orTokens, isEither "or" "||" token = true := by decide
  simp only [readMoreAlternatives, eatEither?_of_tokens h (hall token isOr)]

private theorem readMoreAlternatives_stop (h : Follows [.symbol ")"] ts.tokens) :
    readMoreAlternatives (fuel + 1) p ts = .ok (p, ts) := by
  have hall : ∀ token ∈ [Token.symbol ")"], isEither "or" "||" token = false := by decide
  have hor : eatEither? ts "or" "||" = none := eatEither?_of_ne fun token mem => hall token (h token mem)
  simp only [readMoreAlternatives, hor]

private theorem readMoreConditions_and (isAnd : token ∈ andTokens) (h : ts.tokens = token :: more) :
    readMoreConditions (fuel + 1) p ts = (do
      let (right, ts) ← readCondition fuel ts.tail
      readMoreConditions fuel (.and p right) ts) := by
  have hall : ∀ token ∈ andTokens, isEither "and" "&&" token = true := by decide
  simp only [readMoreConditions, eatEither?_of_tokens h (hall token isAnd)]

private theorem readMoreConditions_stop (h : Follows (.symbol ")" :: orTokens) ts.tokens) :
    readMoreConditions (fuel + 1) p ts = .ok (p, ts) := by
  have hall : ∀ token ∈ .symbol ")" :: orTokens, isEither "and" "&&" token = false := by decide
  have hand : eatEither? ts "and" "&&" = none := eatEither?_of_ne fun token mem => hall token (h token mem)
  simp only [readMoreConditions, hand]

end Conditions

section Resuming
variable {p : Predicate} {fuel : Nat} {ts : Tokens} {rest : List Token}

private theorem finds_conditions
    (h : Resumes 5 (readConditions fuel ts) readMoreConditions (· = p) rest)
    (ends : Follows (.symbol ")" :: orTokens) rest) : Finds (readConditions fuel ts) (· = p) rest := by
  apply h.finds
  rintro steps _ us rfl
  exact readMoreConditions_stop ends

private theorem finds_alternatives
    (h : Resumes 5 (readAlternatives fuel ts) readMoreAlternatives (· = p) rest)
    (ends : Follows [.symbol ")"] rest) : Finds (readAlternatives fuel ts) (· = p) rest := by
  apply h.finds
  rintro steps _ us rfl
  exact readMoreAlternatives_stop ends

end Resuming

mutual

theorem WritesAlternatives.resumes {p : Predicate} {tokens : List Token} : WritesAlternatives p tokens →
    ∀ {fuel : Nat} {ts : Tokens} {rest : List Token}, ts.tokens = tokens ++ rest →
      Follows (.symbol ")" :: orTokens) rest → 5 * (tokens ++ rest).length + 5 ≤ fuel →
        Resumes 5 (readAlternatives fuel ts) readMoreAlternatives (· = p) rest
  | .only writes => by
    intro hts ends enough
    obtain ⟨steps, rfl, hsteps⟩ := exists_step enough
    have hwrites := finds_conditions (writes.resumes hts (ends.mono (by decide)) hsteps) ends
    rw [List.length_append] at hsteps
    exact .start readMoreAlternatives hwrites (by omega)
  | .or isOr left right => by
    intro hts ends enough
    rw [List.append_assoc, List.cons_append] at hts enough
    have hleft := left.resumes hts (follows_cons (List.mem_cons_of_mem _ isOr) _) enough
    apply hleft.step (by decide) (List.suffix_append _ _)
    rintro steps _ us hsteps rfl hus
    have hright := right.resumes (Tokens.tokens_tail hus) (ends.mono (by decide)) (Nat.le_of_succ_le hsteps)
    obtain ⟨_, vs, hread, rfl, hvs⟩ := finds_conditions hright ends
    refine ⟨_, vs, rfl, hvs, ?_⟩
    rw [readMoreAlternatives_or isOr hus, hread]
    rfl

theorem WritesConditions.resumes {p : Predicate} {tokens : List Token} : WritesConditions p tokens →
    ∀ {fuel : Nat} {ts : Tokens} {rest : List Token}, ts.tokens = tokens ++ rest →
      Follows joints rest → 5 * (tokens ++ rest).length + 4 ≤ fuel →
        Resumes 5 (readConditions fuel ts) readMoreConditions (· = p) rest
  | .only writes => by
    intro hts ends enough
    obtain ⟨steps, rfl, hsteps⟩ := exists_step enough
    have hwrites := writes.finds hts ends hsteps
    rw [List.length_append] at hsteps
    exact .start readMoreConditions hwrites (by omega)
  | .and isAnd left right => by
    intro hts ends enough
    rw [List.append_assoc, List.cons_append] at hts enough
    have mem := List.mem_append_right (.symbol ")" :: orTokens) isAnd
    have hleft := left.resumes hts (follows_cons mem _) enough
    apply hleft.step (by decide) (List.suffix_append _ _)
    rintro steps _ us hsteps rfl hus
    have hright := right.finds (Tokens.tokens_tail hus) ends (Nat.le_trans (by omega) hsteps)
    obtain ⟨_, vs, hread, rfl, hvs⟩ := hright
    refine ⟨_, vs, rfl, hvs, ?_⟩
    rw [readMoreConditions_and isAnd hus, hread]
    rfl

theorem WritesCondition.finds {p : Predicate} {tokens : List Token} : WritesCondition p tokens →
    ∀ {fuel : Nat} {ts : Tokens} {rest : List Token}, ts.tokens = tokens ++ rest →
      Follows joints rest → 5 * (tokens ++ rest).length + 3 ≤ fuel → Finds (readCondition fuel ts) (· = p) rest
  | .relation writes => by
    intro hts ends enough
    obtain ⟨steps, rfl, -⟩ := exists_step enough
    obtain ⟨first, more, rfl, starts⟩ := writes.starts
    rw [readCondition_relation starts hts]
    exact writes.finds hts ends
  | .not isNot writes => by
    intro hts ends enough
    obtain ⟨steps, rfl, hsteps⟩ := exists_step enough
    rw [readCondition_not isNot hts]
    rw [List.cons_append, List.length_cons] at hsteps
    apply (writes.finds (Tokens.tokens_tail hts) ends (by omega)).bind
    rintro _ us rfl hus
    exact .ok rfl hus
  | .parentheses writes => by
    intro hts ends enough
    simp only [List.append_assoc, List.cons_append, List.nil_append] at hts enough
    obtain ⟨steps, rfl, hsteps⟩ := exists_step enough
    rw [readCondition_parenthesis hts]
    rw [List.length_cons] at hsteps
    have hinner := writes.resumes (Tokens.tokens_tail hts) (follows_cons List.mem_cons_self _)
      (Nat.le_trans (by omega) hsteps)
    apply (finds_alternatives hinner (follows_cons List.mem_cons_self _)).bind
    rintro _ us rfl hus
    simp only [expect_of_tokens hus]
    exact .ok rfl (Tokens.tokens_tail hus)

end

/-- A condition and nothing more is read to its end. -/
theorem WritesAlternatives.finds {p : Predicate} {tokens : List Token} {ts : Tokens}
    (h : WritesAlternatives p tokens) (hts : ts.tokens = tokens) : Finds (readPredicate ts) (· = p) [] := by
  have hwhole : ts.tokens = tokens ++ [] := hts.trans (List.append_nil tokens).symm
  have ends : Follows [.symbol ")"] [] := follows_nil _
  have enough : 5 * (tokens ++ []).length + 5 ≤ 5 * ts.rest.length + 5 := by
    rw [← hwhole, Tokens.length_tokens]
  exact finds_alternatives (h.resumes hwhole (ends.mono (by decide)) enough) ends

def Predicate.IsWrittenAs (p : Predicate) (source : String) : Prop :=
  ∃ tokens, WritesAlternatives p tokens ∧ Token.IsText true tokens source.toList

/-- Every condition is written as some text, and after `where` each such text is a stage that filters
by that condition. -/
theorem parseAll_where {p : Predicate} (plain : p.IsPlain) (defaults : Delimited.Options) :
    (∃ source, p.IsWrittenAs source) ∧
      ∀ source, p.IsWrittenAs source → Stage.parseAll defaults ("where " ++ source) = .ok [.filter p] := by
  constructor
  · obtain ⟨tokens, spelled, writes⟩ := plain.exists_writes
    obtain ⟨source, isText⟩ := spelled.exists_isText
    exact ⟨source, tokens, .only (.only writes), isText⟩
  · rintro source ⟨tokens, writes, isText⟩
    have hsource : ("where " ++ source).toList = "where".toList ++ ' ' :: source.toList := by
      rw [String.toList_append]
      rfl
    have hverb : Token.Spells true (.ident "where") ("where".toList ++ ' ' :: source.toList) (' ' :: source.toList) :=
      .name (by decide +kernel) (Token.endsName_blank source.toList)
    have hstage : Token.IsText true (.ident "where" :: tokens) ("where " ++ source).toList := by
      rw [hsource]
      exact .token hverb (.blank (by decide +kernel) isText)
    obtain ⟨ts, hstream, hts⟩ := Token.stream_of_isText hstage
    obtain ⟨_, us, hread, rfl, hus⟩ := writes.finds (Tokens.tokens_tail hts)
    have hlower : Unicode.lower "where" = "where" := by decide +kernel
    simp only [Stage.parseAll, hstream, Except.mapError, bind, Except.bind, readStages,
      Tokens.not_isEmpty_of_tokens hts, readStage, Tokens.peek?_of_tokens hts, hlower, Verb.ofName?, readVerb,
      hread, pure, Except.pure, Tokens.isEmpty_of_tokens hus, if_true, Bool.false_eq_true, if_false]

theorem parseAll_where_precedence :
    let excluded := Predicate.isIn (.field "c") [.literal .null] true
    let p := Predicate.or (.truthy (.field "a")) (.and (.not (.truthy (.field "b"))) excluded)
    p.IsPlain ∧ Stage.parseAll .standard ("where " ++ "\"a\" or !\"b\" and \"c\" !in(null)") = .ok [.filter p] := by
  intro excluded p
  have field (name : String) : (Expr.field name).IsPlain := .field name
  have plain : p.IsPlain := by
    refine .or (.truthy (field "a")) (.and (.not (.truthy (field "b"))) (.isIn true (field "c") ?_))
    intro item mem
    obtain rfl := List.mem_singleton.mp mem
    exact .null
  have written : p.IsWrittenAs "\"a\" or !\"b\" and \"c\" !in(null)" := by
    refine ⟨[.quoted "a", .ident "or", .symbol "!", .quoted "b", .ident "and", .quoted "c", .symbol "!",
      .ident "in", .symbol "(", .ident "null", .symbol ")"], ?_, ?_⟩
    · have truthy (name : String) : WritesCondition (.truthy (.field name)) [.quoted name] :=
        .relation (.truthy (.field name))
      have among : WritesRelation excluded
          [.quoted "c", .symbol "!", .ident "in", .symbol "(", .ident "null", .symbol ")"] :=
        .notIn (.field "c") (.last .null)
      have negated : WritesCondition (.not (.truthy (.field "b"))) [.symbol "!", .quoted "b"] :=
        .not (by decide) (truthy "b")
      exact .or (by decide) (.only (.only (truthy "a"))) (.and (by decide) (.only negated) (.relation among))
    · have hsource : "\"a\" or !\"b\" and \"c\" !in(null)".toList = ['"', 'a', '"', ' ', 'o', 'r', ' ', '!',
          '"', 'b', '"', ' ', 'a', 'n', 'd', ' ', '"', 'c', '"', ' ', '!', 'i', 'n', '(', 'n', 'u', 'l', 'l', ')'] := by
        decide
      have mem : '"' ∈ Token.quotes := by decide
      rw [hsource]
      refine .token (.quoted mem "a" _) (.blank (by decide +kernel) ?_)
      refine .token (.name (by decide +kernel) (Token.endsName_blank _)) (.blank (by decide +kernel) ?_)
      refine .token (.symbol (by decide) (by decide)) ?_
      refine .token (.quoted mem "b" _) (.blank (by decide +kernel) ?_)
      refine .token (.name (by decide +kernel) (Token.endsName_blank _)) (.blank (by decide +kernel) ?_)
      refine .token (.quoted mem "c" _) (.blank (by decide +kernel) ?_)
      refine .token (.symbol (by decide) (by decide)) ?_
      refine .token (.name (by decide +kernel) ⟨by decide +kernel, nofun⟩) ?_
      refine .token (.symbol (by decide) (by decide)) ?_
      refine .token (.name (by decide +kernel) ⟨by decide +kernel, nofun⟩) ?_
      exact .token (.symbol (by decide) (by decide)) .nil
  exact ⟨plain, (parseAll_where plain .standard).2 _ written⟩

end Tabulate.Pipeline
