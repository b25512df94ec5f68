import Tabulate.Proofs.Groq.Writing

/-! The parser finds in every writing of a query that query. -/
namespace Tabulate.Groq
open Pipeline (Direction)

section Paths
variable {path : Path} {rest : List Token} {lexemes : List Lexeme} {finish : Nat}

inductive WrittenStep
  | key (name : String)
  | number (n : Number)

namespace WrittenStep

def tokens : WrittenStep → List Token
  | .key name => [.symbol ".", .ident name]
  | .number n => [.symbol "[", .number n, .symbol "]"]

def step : WrittenStep → PathStep
  | .key name => .key name
  | .number n => .index n.toNat64

def ofStep : PathStep → WrittenStep
  | .key name => .key name
  | .index position => .number (.ofNat position)

private theorem tokens_ofStep (step : PathStep) : (ofStep step).tokens = stepTokens step := by
  cases step <;> rfl

private theorem step_ofStep {path : Path} (exact : Exact path) : ∀ step ∈ path, (ofStep step).step = step := by
  intro step mem
  cases step with
  | key name => rfl
  | index position => exact congrArg PathStep.index (Number.toNat64_ofNat (exact position mem))

end WrittenStep

def EndsSteps (rest : List Token) : Prop :=
  rest.head? ≠ some (.symbol ".") ∧ ∀ n more, rest ≠ .symbol "[" :: .number n :: more

/-- The tokens that a path does not go on with, whatever comes after the first of them. -/
def EndsPath (rest : List Token) : Prop :=
  rest.head? ≠ some (.symbol ".") ∧ rest.head? ≠ some (.symbol "[")

private theorem EndsPath.endsSteps (h : EndsPath rest) : EndsSteps rest :=
  ⟨h.1, fun _ _ heq => h.2 (heq ▸ rfl)⟩

private theorem readSteps_end (h : lexemes.map (·.token) = rest) (ends : EndsSteps rest) :
    readSteps lexemes finish = .ok ([], lexemes) := by
  unfold readSteps
  split
  next => exact absurd (by rw [← h]; rfl) ends.1
  next => exact absurd (by rw [← h]; rfl) ends.1
  next => exact absurd h.symm (ends.2 _ _)
  next => rfl

private theorem lexemes_cons {token : Token} (h : lexemes.map (·.token) = token :: rest) :
    ∃ position others, lexemes = ⟨token, position⟩ :: others ∧ others.map (·.token) = rest := by
  obtain ⟨⟨_, position⟩, others, rfl, rfl, hothers⟩ := List.map_eq_cons_iff.mp h
  exact ⟨position, others, rfl, hothers⟩

/-- All steps of a path are read, and nothing behind them. -/
theorem readSteps_written (finish : Nat) {steps : List WrittenStep} (ends : EndsSteps rest)
    (h : lexemes.map (·.token) = steps.flatMap WrittenStep.tokens ++ rest) :
    readSteps lexemes finish = .ok (steps.map WrittenStep.step,
      lexemes.drop (steps.flatMap WrittenStep.tokens).length) := by
  induction steps generalizing lexemes with
  | nil => exact readSteps_end h ends
  | cons step steps ih =>
    rw [List.flatMap_cons, List.append_assoc] at h
    cases step with
    | key name =>
      obtain ⟨_, _, rfl, hpoint⟩ := lexemes_cons h
      obtain ⟨_, _, rfl, hname⟩ := lexemes_cons hpoint
      rw [readSteps, ih hname]
      rfl
    | number n =>
      obtain ⟨_, _, rfl, hopen⟩ := lexemes_cons h
      obtain ⟨_, _, rfl, hnumber⟩ := lexemes_cons hopen
      obtain ⟨_, _, rfl, hclose⟩ := lexemes_cons hnumber
      rw [readSteps, ih hclose]
      rfl

private theorem readSteps_path (finish : Nat) (exact : Exact path) (ends : EndsPath rest)
    (h : lexemes.map (·.token) = path.flatMap stepTokens ++ rest) :
    ∃ others, readSteps lexemes finish = .ok (path, others) ∧ others.map (·.token) = rest := by
  have htokens : (path.map WrittenStep.ofStep).flatMap WrittenStep.tokens = path.flatMap stepTokens := by
    rw [List.flatMap_map]
    exact congrArg (path.flatMap ·) (funext WrittenStep.tokens_ofStep)
  have hsteps : (path.map WrittenStep.ofStep).map WrittenStep.step = path := by
    rw [List.map_map]
    exact (List.map_congr_left (WrittenStep.step_ofStep exact)).trans (List.map_id' path)
  have hread := readSteps_written finish ends.endsSteps (htokens.symm ▸ h)
  rw [hsteps] at hread
  refine ⟨_, hread, ?_⟩
  rw [List.map_drop, htokens, h, List.drop_left]

private theorem readPath_of_tokens {ts : Tokens} (exact : Exact path) (ends : EndsPath rest)
    (h : ts.tokens = pathTokens path ++ rest) : Finds (readPath ts) (· = path) rest := by
  rw [pathTokens, List.cons_append] at h
  obtain ⟨others, hread, hothers⟩ := readSteps_path ts.finish exact ends (Tokens.tokens_tail h)
  simp only [readPath, Tokens.peek?_of_tokens h, hread]
  exact .ok rfl hothers

end Paths

section Tokens
variable {ts : Tokens} {symbol : String} {more : List Token}

theorem expect_of_tokens (h : ts.tokens = .symbol symbol :: more) : expect ts symbol = .ok ts.tail := by
  rw [expect, Tokens.eat?_of_tokens h]

end Tokens

section Operands
variable {fuel : Nat} {ts : Tokens} {rest more : List Token}
attribute [local simp] readPrimary

private theorem readPrimary_integer {i : Int} (h : ts.tokens = Token.integer i ++ rest) :
    Finds (readPrimary (fuel + 1) ts) (· = .literal (.number (.ofInt i))) rest := by
  obtain ⟨n, rfl, hi⟩ | ⟨n, pos, rfl, hi⟩ := Token.integer_cases i
  · rw [hi] at h
    simp only [readPrimary, Tokens.peek?_of_tokens h]
    exact .ok (by rw [Number.ofNat_eq_ofInt]) (Tokens.tokens_tail h)
  · rw [hi] at h
    have htail := Tokens.tokens_tail h
    have hsecond : ts.peekSecond? = some (.number (.ofNat n)) := Tokens.peekSecond?_of_tokens h
    simp only [readPrimary, Tokens.peek?_of_tokens h, hsecond]
    exact .ok (by rw [Number.neg_ofNat pos]) (Tokens.tokens_tail htail)

private theorem readPrimary_path (h : ts.tokens = .symbol "@" :: more) :
    readPrimary (fuel + 1) ts = (do
      let (path, ts) ← readPath ts
      return (.path path, ts)) := by
  simp [Tokens.peek?_of_tokens h]

private theorem readPrimary_parenthesis (h : ts.tokens = .symbol "(" :: more) :
    readPrimary (fuel + 1) ts = (do
      let (inner, ts) ← readOr fuel ts.tail
      return (inner, ← expect ts ")")) := by
  simp [Tokens.peek?_of_tokens h]

private theorem readPrimary_emptyBrackets (h : ts.tokens = .symbol "[" :: .symbol "]" :: more) :
    readPrimary (fuel + 1) ts = .ok (.array [], ts.tail.tail) := by
  have heat := Tokens.eat?_of_tokens (Tokens.tokens_tail h)
  simp [Tokens.peek?_of_tokens h, heat]

private theorem readPrimary_bracket (h : ts.tokens = .symbol "[" :: more) (opens : more.head? ≠ some (.symbol "]")) :
    readPrimary (fuel + 1) ts = (do
      let (items, ts) ← readItems fuel ts.tail
      return (.array items, ts)) := by
  have heat : ts.tail.eat? "]" = none := by
    apply Tokens.eat?_of_ne
    rwa [Tokens.tokens_tail h]
  simp [Tokens.peek?_of_tokens h, heat]

private theorem readPrimary_defined (h : ts.tokens = .ident "defined" :: .symbol "(" :: more) :
    readPrimary (fuel + 1) ts = (do
      let (inner, ts) ← readPrimary fuel ts.tail.tail
      return (.defined inner, ← expect ts ")")) := by
  simp [Tokens.peek?_of_tokens h, Tokens.peekSecond?_of_tokens h]

end Operands

def exprEnds : List Token := [.symbol ")", .symbol "]", .symbol ",", .symbol "\x7d"]

def comparisonEnds : List Token := .symbol "&&" :: .symbol "||" :: exprEnds

section Conditions
variable {fuel : Nat} {ts : Tokens} {e : Expr} {op : CompareOp} {token : Token} {tokens rest more : List Token}

/-- An operand starts neither with the end of an array nor with the mark of a negation. -/
theorem WritesPrimary.starts (h : WritesPrimary e tokens) :
    ∃ first more, tokens = first :: more ∧ first ≠ .symbol "]" ∧ first ≠ .symbol "!" := by
  cases h with
  | null | true | false | quoted | singleQuoted | defined => exact ⟨_, _, rfl, nofun, nofun⟩
  | path | array | parentheses => exact ⟨_, _, rfl, by decide, by decide⟩
  | integer i =>
    cases i with
    | ofNat n => exact ⟨_, _, rfl, nofun, nofun⟩
    | negSucc n => exact ⟨_, _, rfl, by decide, by decide⟩

theorem WritesComparison.head?_ne (h : WritesComparison e tokens) (rest : List Token) :
    (tokens ++ rest).head? ≠ some (.symbol "!") := by
  have append {operand : Expr} {before after : List Token} (writes : WritesPrimary operand before) :
      (before ++ after).head? ≠ some (.symbol "!") := by
    obtain ⟨first, more, rfl, -, hmark⟩ := writes.starts
    exact fun heq => hmark (Option.some.inj heq)
  cases h with
  | only writes => exact append writes
  | compare _ writesLeft _ => exact List.append_assoc _ _ _ ▸ append writesLeft
  | isIn writesLeft _ => exact List.append_assoc _ _ _ ▸ append writesLeft

private theorem endsPath_of_follows (h : Follows comparisonEnds rest) : EndsPath rest :=
  ⟨h.head?_ne (by decide), h.head?_ne (by decide)⟩

private theorem endsPath_of_operator (isOp : CompareOp.ofToken? token = some op) (rest : List Token) :
    EndsPath (token :: rest) := by
  constructor
  · rintro ⟨⟩
    contradiction
  · rintro ⟨⟩
    contradiction

private theorem next_of_follows (h : Follows comparisonEnds ts.tokens) :
    ts.peek?.bind CompareOp.ofToken? = none ∧ ts.eatWord? "in" = none := by
  constructor
  · rw [Tokens.peek?_eq_head?]
    cases hnext : ts.tokens.head? with
    | none => rfl
    | some token =>
      have hall : ∀ token ∈ comparisonEnds, CompareOp.ofToken? token = none := by decide
      exact hall token (h token hnext)
  · apply Tokens.eatWord?_of_ne
    intro name hnext
    have hall : ∀ token ∈ comparisonEnds, ∀ name, token ≠ .ident name := by
      simp [comparisonEnds, exprEnds]
    exact absurd rfl (hall _ (h _ hnext) name)

private theorem readMoreAnd_and (h : ts.tokens = .symbol "&&" :: more) :
    readMoreAnd (fuel + 1) e ts = (do
      let (right, ts) ← readUnary fuel ts.tail
      readMoreAnd fuel (.and e right) ts) := by
  simp only [readMoreAnd, Tokens.eat?_of_tokens h]

private theorem readMoreOr_or (h : ts.tokens = .symbol "||" :: more) :
    readMoreOr (fuel + 1) e ts = (do
      let (right, ts) ← readAnd fuel ts.tail
      readMoreOr fuel (.or e right) ts) := by
  simp only [readMoreOr, Tokens.eat?_of_tokens h]

private theorem finds_and (h : Resumes 6 (readAnd fuel ts) readMoreAnd (· = e) rest)
    (ends : Follows (.symbol "||" :: exprEnds) rest) : Finds (readAnd fuel ts) (· = e) rest := by
  apply h.finds
  rintro steps _ us rfl
  have hnone : us.eat? "&&" = none := Tokens.eat?_of_ne (ends.head?_ne (by decide))
  simp only [readMoreAnd, hnone]

private theorem finds_or (h : Resumes 6 (readOr fuel ts) readMoreOr (· = e) rest)
    (ends : Follows exprEnds rest) : Finds (readOr fuel ts) (· = e) rest := by
  apply h.finds
  rintro steps _ us rfl
  have hnone : us.eat? "||" = none := Tokens.eat?_of_ne (ends.head?_ne (by decide))
  simp only [readMoreOr, hnone]

end Conditions

def FindsItems (items : List Expr) (tokens : List Token) : Prop :=
  ∀ {fuel : Nat} {ts : Tokens} {rest : List Token}, ts.tokens = tokens ++ .symbol "]" :: rest →
    6 * (tokens ++ .symbol "]" :: rest).length + 3 ≤ fuel → Finds (readItems fuel ts) (· = items) rest

private theorem finds_array {items : List Expr} {inner rest : List Token} {ts : Tokens} {fuel : Nat}
    (writes : WritesItems items inner) (h : items ≠ [] → FindsItems items inner)
    (hts : ts.tokens = .symbol "[" :: (inner ++ .symbol "]" :: rest))
    (enough : 6 * (inner ++ .symbol "]" :: rest).length + 3 ≤ fuel) :
    Finds (readPrimary (fuel + 1) ts) (· = .array items) rest := by
  by_cases hitems : items = []
  · subst hitems
    cases writes
    rw [readPrimary_emptyBrackets hts]
    exact .ok rfl (Tokens.tokens_tail (Tokens.tokens_tail hts))
  · have opens : (inner ++ .symbol "]" :: rest).head? ≠ some (.symbol "]") := by
      cases writes with
      | nil => exact absurd rfl hitems
      | last first | more first _ =>
        obtain ⟨first, more, rfl, hclose, -⟩ := first.starts
        exact fun heq => hclose (Option.some.inj heq)
    rw [readPrimary_bracket hts opens]
    apply (h hitems (Tokens.tokens_tail hts) enough).bind
    rintro _ us rfl hus
    exact .ok rfl hus

mutual

theorem WritesPrimary.finds {e : Expr} {tokens : List Token} : WritesPrimary e tokens →
    ∀ {fuel : Nat} {ts : Tokens} {rest : List Token}, ts.tokens = tokens ++ rest → EndsPath rest →
      6 * (tokens ++ rest).length + 2 ≤ fuel → Finds (readPrimary fuel ts) (· = e) rest
  | .null | .true | .false | .quoted _ | .singleQuoted _ => by
    intro hts _ enough
    obtain ⟨steps, rfl, -⟩ := exists_step enough
    simp only [readPrimary, Tokens.peek?_of_tokens hts]
    exact .ok rfl (Tokens.tokens_tail hts)
  | .integer i => by
    intro hts _ enough
    obtain ⟨steps, rfl, -⟩ := exists_step enough
    exact readPrimary_integer hts
  | .path exact => by
    intro hts ends enough
    obtain ⟨steps, rfl, -⟩ := exists_step enough
    rw [readPrimary_path hts]
    apply (readPath_of_tokens exact ends hts).bind
    rintro _ us rfl hus
    exact .ok rfl hus
  | .array items => by
    intro hts _ enough
    simp only [List.append_assoc, List.cons_append, List.nil_append] at hts enough
    obtain ⟨steps, rfl, hsteps⟩ := exists_step enough
    rw [List.length_cons] at hsteps
    exact finds_array items items.finds hts (Nat.le_trans (by omega) hsteps)
  | .defined writes => by
    intro hts _ enough
    simp only [List.append_assoc, List.cons_append, List.nil_append] at hts enough
    obtain ⟨steps, rfl, hsteps⟩ := exists_step enough
    rw [List.length_cons, List.length_cons] at hsteps
    rw [readPrimary_defined hts]
    have hinner := Tokens.tokens_tail (Tokens.tokens_tail hts)
    apply (writes.finds hinner ⟨by simp, by simp⟩ (Nat.le_trans (by omega) hsteps)).bind
    rintro _ us rfl hus
    simp only [expect_of_tokens hus]
    exact .ok rfl (Tokens.tokens_tail hus)
  | .parentheses writes => by
    intro hts _ enough
    simp only [List.append_assoc, List.cons_append, List.nil_append] at hts enough
    obtain ⟨steps, rfl, hsteps⟩ := exists_step enough
    rw [List.length_cons] at hsteps
    rw [readPrimary_parenthesis hts]
    have hinner := writes.resumes (Tokens.tokens_tail hts) (follows_cons (by decide) _)
      (Nat.le_trans (by omega) hsteps)
    apply (finds_or hinner (follows_cons (by decide) _)).bind
    rintro _ us rfl hus
    simp only [expect_of_tokens hus]
    exact .ok rfl (Tokens.tokens_tail hus)

theorem WritesItems.finds {items : List Expr} {tokens : List Token} : WritesItems items tokens →
    items ≠ [] → FindsItems items tokens
  | .nil => fun h => absurd rfl h
  | .last item => by
    intro _ fuel ts rest hts enough
    obtain ⟨steps, rfl, hsteps⟩ := exists_step enough
    rw [readItems]
    apply (item.finds hts ⟨by simp, by simp⟩ hsteps).bind
    rintro _ us rfl hus
    simp only [Tokens.eat?_of_tokens hus]
    exact .ok rfl (Tokens.tokens_tail hus)
  | .more item more => by
    intro _ fuel ts rest hts enough
    rw [List.append_assoc, List.cons_append] at hts enough
    obtain ⟨steps, rfl, hsteps⟩ := exists_step enough
    rw [readItems]
    apply (item.finds hts ⟨by simp, by simp⟩ hsteps).bind
    rintro _ us rfl hus
    have hclose : us.eat? "]" = none := Tokens.eat?_of_ne (by simp [hus])
    simp only [hclose, expect_of_tokens hus]
    rw [List.length_append, List.length_cons] at hsteps
    apply (more.finds (List.cons_ne_nil _ _) (Tokens.tokens_tail hus) (by omega)).bind
    rintro _ vs rfl hvs
    exact .ok rfl hvs

theorem WritesComparison.finds {e : Expr} {tokens : List Token} : WritesComparison e tokens →
    ∀ {fuel : Nat} {ts : Tokens} {rest : List Token}, ts.tokens = tokens ++ rest → Follows comparisonEnds rest →
      6 * (tokens ++ rest).length + 3 ≤ fuel → Finds (readComparison fuel ts) (· = e) rest
  | .only writes => by
    intro hts ends enough
    obtain ⟨steps, rfl, hsteps⟩ := exists_step enough
    rw [readComparison]
    apply (writes.finds hts (endsPath_of_follows ends) hsteps).bind
    rintro _ us rfl rfl
    obtain ⟨hoperator, hin⟩ := next_of_follows ends
    simp only [hoperator, hin]
    exact .ok rfl rfl
  | .compare isOp left right => by
    intro hts ends enough
    rw [List.append_assoc, List.cons_append] at hts enough
    obtain ⟨steps, rfl, hsteps⟩ := exists_step enough
    rw [readComparison]
    apply (left.finds hts (endsPath_of_operator isOp _) hsteps).bind
    rintro _ us rfl hus
    rw [List.length_append, List.length_cons] at hsteps
    simp only [Tokens.peek?_of_tokens hus, Option.bind_some, isOp]
    apply (right.finds (Tokens.tokens_tail hus) (endsPath_of_follows ends) (by omega)).bind
    rintro _ vs rfl hvs
    exact .ok rfl hvs
  | .isIn left right => by
    intro hts ends enough
    rw [List.append_assoc, List.cons_append] at hts enough
    obtain ⟨steps, rfl, hsteps⟩ := exists_step enough
    rw [readComparison]
    apply (left.finds hts ⟨by simp, by simp⟩ hsteps).bind
    rintro _ us rfl hus
    have hoperator : us.peek?.bind CompareOp.ofToken? = none := by
      rw [Tokens.peek?_of_tokens hus]
      rfl
    have hin : us.eatWord? "in" = some us.tail := Tokens.eatWord?_of_tokens hus (by decide)
    rw [List.length_append, List.length_cons] at hsteps
    simp only [hoperator, hin]
    apply (right.finds (Tokens.tokens_tail hus) (endsPath_of_follows ends) (by omega)).bind
    rintro _ vs rfl hvs
    exact .ok rfl hvs

theorem WritesUnary.finds {e : Expr} {tokens : List Token} : WritesUnary e tokens →
    ∀ {fuel : Nat} {ts : Tokens} {rest : List Token}, ts.tokens = tokens ++ rest → Follows comparisonEnds rest →
      6 * (tokens ++ rest).length + 4 ≤ fuel → Finds (readUnary fuel ts) (· = e) rest
  | .only writes => by
    intro hts ends enough
    obtain ⟨steps, rfl, hsteps⟩ := exists_step enough
    rw [readUnary, Tokens.eat?_of_ne (hts ▸ writes.head?_ne _)]
    exact writes.finds hts ends hsteps
  | .not writes => by
    intro hts ends enough
    obtain ⟨steps, rfl, hsteps⟩ := exists_step enough
    rw [List.cons_append, List.length_cons] at hsteps
    simp only [readUnary, Tokens.eat?_of_tokens hts]
    apply (writes.finds (Tokens.tokens_tail hts) ends (by omega)).bind
    rintro _ us rfl hus
    exact .ok rfl hus

theorem WritesAnd.resumes {e : Expr} {tokens : List Token} : WritesAnd e tokens →
    ∀ {fuel : Nat} {ts : Tokens} {rest : List Token}, ts.tokens = tokens ++ rest → Follows comparisonEnds rest →
      6 * (tokens ++ rest).length + 5 ≤ fuel → Resumes 6 (readAnd fuel ts) readMoreAnd (· = e) rest
  | .only writes => by
    intro hts ends enough
    obtain ⟨steps, rfl, hsteps⟩ := exists_step enough
    have hwrites := writes.finds hts ends hsteps
    rw [List.length_append] at hsteps
    exact .start readMoreAnd hwrites (by omega)
  | .and left right => by
    intro hts ends enough
    rw [List.append_assoc, List.cons_append] at hts enough
    have hleft := left.resumes hts (follows_cons (by decide) _) enough
    apply hleft.step (by decide) (List.suffix_append _ _)
    rintro steps _ us hsteps rfl hus
    have hright := right.finds (Tokens.tokens_tail hus) ends (Nat.le_trans (by omega) hsteps)
    obtain ⟨_, vs, hread, rfl, hvs⟩ := hright
    refine ⟨_, vs, rfl, hvs, ?_⟩
    rw [readMoreAnd_and hus, hread]
    rfl

theorem WritesOr.resumes {e : Expr} {tokens : List Token} : WritesOr e tokens →
    ∀ {fuel : Nat} {ts : Tokens} {rest : List Token}, ts.tokens = tokens ++ rest →
      Follows (.symbol "||" :: exprEnds) rest → 6 * (tokens ++ rest).length + 6 ≤ fuel →
        Resumes 6 (readOr fuel ts) readMoreOr (· = e) rest
  | .only writes => by
    intro hts ends enough
    obtain ⟨steps, rfl, hsteps⟩ := exists_step enough
    have hwrites := finds_and (writes.resumes hts (ends.mono (List.subset_cons_self _ _)) hsteps) ends
    rw [List.length_append] at hsteps
    exact .start readMoreOr hwrites (by omega)
  | .or left right => by
    intro hts ends enough
    rw [List.append_assoc, List.cons_append] at hts enough
    have hleft := left.resumes hts (follows_cons (by decide) _) enough
    apply hleft.step (by decide) (List.suffix_append _ _)
    rintro steps _ us hsteps rfl hus
    have hright := right.resumes (Tokens.tokens_tail hus) (ends.mono (List.subset_cons_self _ _))
      (Nat.le_of_succ_le hsteps)
    obtain ⟨_, vs, hread, rfl, hvs⟩ := finds_and hright ends
    refine ⟨_, vs, rfl, hvs, ?_⟩
    rw [readMoreOr_or hus, hread]
    rfl

end

section Segments
variable {ts : Tokens} {tokens rest more : List Token}

/-- An expression is read up to a token that ends it. -/
theorem WritesOr.readExpr {e : Expr} (h : WritesOr e tokens) (hts : ts.tokens = tokens ++ rest)
    (ends : Follows exprEnds rest) : Finds (readExpr ts) (· = e) rest := by
  have enough : 6 * (tokens ++ rest).length + 6 ≤ 6 * ts.rest.length + 6 := by
    rw [← hts, Tokens.length_tokens]
  exact finds_or (h.resumes hts (ends.mono (List.subset_cons_self _ _)) enough) ends

def readAs (i : Int) : Int :=
  if i < 0 then -(Number.ofNat i.natAbs).toInt64 else (Number.ofNat i.natAbs).toInt64

theorem readAs_eq_self {i : Int} (exact : i.natAbs < twoTo 53) : readAs i = i := by
  rw [readAs, Number.toInt64_ofNat exact]
  split <;> omega

private theorem readInteger?_integer {i : Int} (whole : (Number.ofNat i.natAbs).isWhole = true)
    (h : ts.tokens = Token.integer i ++ rest) : ∃ us, readInteger? ts = some (readAs i, us) ∧ us.tokens = rest := by
  obtain ⟨n, rfl, hi⟩ | ⟨n, pos, rfl, hi⟩ := Token.integer_cases i
  · rw [hi] at h
    have hvalue : readAs n = (Number.ofNat n).toInt64 := if_neg (by omega)
    refine ⟨ts.tail, ?_, Tokens.tokens_tail h⟩
    rw [Int.natAbs_natCast] at whole
    simp only [readInteger?, Tokens.peek?_of_tokens h, whole, if_true, hvalue]
  · rw [hi] at h
    have hvalue : readAs (-n) = -(Number.ofNat n).toInt64 := by
      rw [readAs, if_pos (by omega), Int.natAbs_neg, Int.natAbs_natCast]
    have hsecond : ts.peekSecond? = some (.number (.ofNat n)) := Tokens.peekSecond?_of_tokens h
    refine ⟨ts.tail.tail, ?_, Tokens.tokens_tail (Tokens.tokens_tail h)⟩
    rw [Int.natAbs_neg, Int.natAbs_natCast] at whole
    simp only [readInteger?, Tokens.peek?_of_tokens h, hsecond, whole, if_true, hvalue]

private theorem readRange?_none (h : ts.tokens = .symbol "(" :: more) : readRange? ts = .ok none := by
  have hnone : readInteger? ts = none := by
    simp [readInteger?, Tokens.peek?_of_tokens h]
  rw [readRange?, hnone]

private theorem readRange?_index {i : Int} (whole : (Number.ofNat i.natAbs).isWhole = true)
    (h : ts.tokens = Token.integer i ++ .symbol "]" :: rest) :
    ∃ us, readRange? ts = .ok (some (.index (readAs i), us)) ∧ us.tokens = rest := by
  obtain ⟨us, hread, hus⟩ := readInteger?_integer whole h
  refine ⟨us.tail, ?_, Tokens.tokens_tail hus⟩
  simp only [readRange?, hread, Tokens.eat?_of_tokens hus]

theorem readRange?_slice {first last : Int} (inclusive : Bool)
    (wholeFirst : (Number.ofNat first.natAbs).isWhole = true)
    (wholeLast : (Number.ofNat last.natAbs).isWhole = true)
    (h : ts.tokens = Token.integer first ++ .symbol (if inclusive then ".." else "...") ::
      (Token.integer last ++ .symbol "]" :: rest)) :
    ∃ us, readRange? ts = .ok (some (.slice (readAs first) (readAs last) inclusive, us)) ∧ us.tokens = rest := by
  obtain ⟨us, hread, hus⟩ := readInteger?_integer wholeFirst h
  obtain ⟨vs, hreadLast, hvs⟩ := readInteger?_integer wholeLast (Tokens.tokens_tail hus)
  refine ⟨vs.tail, ?_, Tokens.tokens_tail hvs⟩
  have hslice : readRange?.slice (readAs first) inclusive us.tail =
      .ok (.slice (readAs first) (readAs last) inclusive, vs.tail) := by
    simp only [readRange?.slice, hreadLast, expect_of_tokens hvs]
    rfl
  cases inclusive with
  | true =>
    have hclose : us.eat? "]" = none := Tokens.eat?_of_ne (by simp [hus])
    have hpoints : us.eat? ".." = some us.tail := Tokens.eat?_of_tokens hus
    simp only [readRange?, hread, hclose, hpoints, hslice]
    rfl
  | false =>
    have hclose : us.eat? "]" = none := Tokens.eat?_of_ne (by simp [hus])
    have htwo : us.eat? ".." = none := Tokens.eat?_of_ne (by simp [hus])
    have hthree : us.eat? "..." = some us.tail := Tokens.eat?_of_tokens hus
    simp only [readRange?, hread, hclose, htwo, hthree, hslice]
    rfl

theorem WritesEntry.finds {entry : Entry} (h : WritesEntry entry tokens) (hts : ts.tokens = tokens ++ rest)
    (ends : Follows exprEnds rest) : Finds (readEntry ts) (· = entry) rest := by
  cases h with
  | spread =>
    simp only [readEntry, Tokens.peek?_of_tokens hts]
    exact .ok rfl (Tokens.tokens_tail hts)
  | quoted name writes | singleQuoted name writes =>
    have hcolon := Tokens.tokens_tail hts
    simp only [readEntry, Tokens.peek?_of_tokens hts, expect_of_tokens hcolon]
    apply (writes.readExpr (Tokens.tokens_tail hcolon) ends).bind
    rintro _ us rfl hus
    exact .ok rfl hus

private theorem WritesEntry.head?_ne {entry : Entry} (h : WritesEntry entry tokens) (rest : List Token) :
    (tokens ++ rest).head? ≠ some (.symbol "\x7d") := by
  cases h with
  | spread => exact fun heq => absurd (Option.some.inj heq) (by decide)
  | quoted name _ | singleQuoted name _ => exact fun heq => nomatch heq

theorem WritesEntries.finds {entries : List Entry} (h : WritesEntries entries tokens) {fuel : Nat}
    (hts : ts.tokens = tokens ++ .symbol "\x7d" :: rest)
    (enough : (tokens ++ .symbol "\x7d" :: rest).length ≤ fuel) :
    Finds (readEntries fuel ts) (· = entries) rest := by
  induction h generalizing fuel ts with
  | nil =>
    obtain ⟨steps, rfl, -⟩ := exists_step enough
    rw [readEntries, Tokens.eat?_of_tokens hts]
    exact .ok rfl (Tokens.tokens_tail hts)
  | last writes =>
    rw [List.length_append] at enough
    obtain ⟨steps, rfl, -⟩ := exists_step (Nat.le_trans (Nat.le_add_left _ _) enough)
    rw [readEntries, Tokens.eat?_of_ne (hts ▸ writes.head?_ne _)]
    apply (writes.finds hts (follows_cons (by decide) _)).bind
    rintro _ us rfl hus
    have hcomma : us.eat? "," = none := Tokens.eat?_of_ne (by simp [hus])
    simp only [hcomma, expect_of_tokens hus]
    exact .ok rfl (Tokens.tokens_tail hus)
  | more writes _ ih =>
    rw [List.append_assoc, List.cons_append] at hts enough
    rw [List.length_append] at enough
    obtain ⟨steps, rfl, hsteps⟩ := exists_step (Nat.le_trans (Nat.le_add_left _ _) enough)
    rw [readEntries, Tokens.eat?_of_ne (hts ▸ writes.head?_ne _)]
    apply (writes.finds hts (follows_cons (by decide) _)).bind
    rintro _ us rfl hus
    simp only [Tokens.eat?_of_tokens hus]
    apply (ih (Tokens.tokens_tail hus) hsteps).bind
    rintro _ vs rfl hvs
    exact .ok rfl hvs

private theorem readDirection_of_tokens {direction : Direction} (h : ts.tokens = directionToken direction :: more) :
    readDirection ts = (direction, ts.tail) := by
  cases direction with
  | ascending =>
    have hdesc : ts.eatWord? "desc" = none := by
      apply Tokens.eatWord?_of_ne
      rw [h]
      rintro _ ⟨⟩
      decide
    rw [readDirection, hdesc, Tokens.eatWord?_of_tokens h (by decide), Option.getD_some]
  | descending => rw [readDirection, Tokens.eatWord?_of_tokens h (by decide)]

private theorem endsPath_direction (direction : Direction) (rest : List Token) :
    EndsPath (directionToken direction :: rest) := by
  cases direction <;> exact ⟨nofun, nofun⟩

theorem WritesKeys.finds {keys : List (Path × Direction)} (h : WritesKeys keys tokens) {fuel : Nat}
    (hts : ts.tokens = tokens ++ .symbol ")" :: rest) (enough : (tokens ++ .symbol ")" :: rest).length ≤ fuel) :
    Finds (readKeys fuel ts) (· = keys) rest := by
  induction h generalizing fuel ts with
  | last exact =>
    rw [List.append_assoc, List.cons_append, List.nil_append] at hts enough
    rw [List.length_append] at enough
    obtain ⟨steps, rfl, -⟩ := exists_step (Nat.le_trans (Nat.le_add_left _ _) enough)
    rw [readKeys]
    apply (readPath_of_tokens exact (endsPath_direction _ _) hts).bind
    rintro _ us rfl hus
    have hclose := Tokens.tokens_tail hus
    simp only [readDirection_of_tokens hus, Tokens.eat?_of_tokens hclose]
    exact .ok rfl (Tokens.tokens_tail hclose)
  | more exact _ ih =>
    rw [List.append_assoc, List.cons_append, List.cons_append] at hts enough
    rw [List.length_append] at enough
    obtain ⟨steps, rfl, hsteps⟩ := exists_step (Nat.le_trans (Nat.le_add_left _ _) enough)
    rw [readKeys]
    apply (readPath_of_tokens exact (endsPath_direction _ _) hts).bind
    rintro _ us rfl hus
    have hcomma := Tokens.tokens_tail hus
    have hclose : us.tail.eat? ")" = none := Tokens.eat?_of_ne (by simp [hcomma])
    simp only [readDirection_of_tokens hus, hclose, expect_of_tokens hcomma]
    apply (ih (Tokens.tokens_tail hcomma) (Nat.le_of_succ_le hsteps)).bind
    rintro _ vs rfl hvs
    exact .ok rfl hvs

theorem readSegment_range {segment : Segment} {us : Tokens} (h : ts.tokens = .symbol "[" :: more)
    (range : readRange? ts.tail = .ok (some (segment, us))) : readSegment ts = .ok (segment, us) := by
  simp only [readSegment, Tokens.peek?_of_tokens h, range]
  rfl

theorem WritesSegment.finds {segment : Segment} (h : WritesSegment segment tokens)
    (hts : ts.tokens = tokens ++ rest) : Finds (readSegment ts) (· = segment) rest := by
  cases h with
  | @filter condition inner writes =>
    have hcondition : ts.tail.tokens = .symbol "(" :: (inner ++ [.symbol ")"]) ++ .symbol "]" :: rest := by
      rw [Tokens.tokens_tail hts]
      simp
    have parenthesised : WritesOr condition (.symbol "(" :: (inner ++ [.symbol ")"])) :=
      WritesPrimary.toOr (.parentheses writes)
    simp only [readSegment, Tokens.peek?_of_tokens hts, readRange?_none hcondition]
    apply (parenthesised.readExpr hcondition (follows_cons (by decide) _)).bind
    rintro _ us rfl hus
    simp only [expect_of_tokens hus]
    exact .ok rfl (Tokens.tokens_tail hus)
  | index exact =>
    simp only [List.append_assoc, List.cons_append, List.nil_append] at hts
    obtain ⟨us, range, hus⟩ := readRange?_index (Number.isWhole_ofNat exact) (Tokens.tokens_tail hts)
    rw [readSegment_range hts range, readAs_eq_self exact]
    exact .ok rfl hus
  | slice inclusive exactFirst exactLast =>
    simp only [List.append_assoc, List.cons_append, List.nil_append] at hts
    obtain ⟨us, range, hus⟩ := readRange?_slice inclusive (Number.isWhole_ofNat exactFirst)
      (Number.isWhole_ofNat exactLast) (Tokens.tokens_tail hts)
    rw [readSegment_range hts range, readAs_eq_self exactFirst, readAs_eq_self exactLast]
    exact .ok rfl hus
  | @projection entries _ writes =>
    simp only [List.append_assoc, List.cons_append, List.nil_append] at hts
    have hlength := Tokens.length_of_tokens hts
    rw [List.length_cons] at hlength
    have hentries : Finds (readEntries (ts.rest.length + 1) ts.tail) (· = entries) rest :=
      writes.finds (Tokens.tokens_tail hts) (by omega)
    simp only [readSegment, Tokens.peek?_of_tokens hts]
    apply hentries.bind
    rintro _ us rfl hus
    exact .ok rfl hus
  | @order keys _ writes =>
    simp only [List.append_assoc, List.cons_append, List.nil_append] at hts
    have hopen := Tokens.tokens_tail (Tokens.tokens_tail hts)
    have hlength := Tokens.length_of_tokens hopen
    rw [List.length_cons] at hlength
    have hkeys : Finds (readKeys (ts.tail.tail.rest.length + 1) ts.tail.tail.tail) (· = keys) rest :=
      writes.finds (Tokens.tokens_tail hopen) (by omega)
    have horder : ts.tail.eatWord? "order" = some ts.tail.tail :=
      Tokens.eatWord?_of_tokens (Tokens.tokens_tail hts) (by decide)
    simp only [readSegment, Tokens.peek?_of_tokens hts, horder, expect_of_tokens hopen]
    apply hkeys.bind
    rintro _ us rfl hus
    exact .ok rfl hus

private theorem WritesSegment.exists_cons {segment : Segment} (h : WritesSegment segment tokens) :
    ∃ first more, tokens = first :: more := by
  cases h <;> exact ⟨_, _, rfl⟩

/-- All segments are read, up to the end. -/
theorem WritesSegments.readSegments_eq {segments : List Segment} (h : WritesSegments segments tokens)
    {fuel : Nat} (hts : ts.tokens = tokens) (enough : tokens.length + 1 ≤ fuel) :
    readSegments fuel ts = .ok segments := by
  induction h generalizing fuel ts with
  | nil =>
    obtain ⟨steps, rfl, -⟩ := exists_step enough
    rw [readSegments, Tokens.isEmpty_of_tokens hts, if_pos rfl]
  | cons writes _ ih =>
    obtain ⟨steps, rfl, hsteps⟩ := exists_step enough
    obtain ⟨_, us, hread, rfl, hus⟩ := writes.finds hts
    obtain ⟨first, more, rfl⟩ := writes.exists_cons
    rw [List.cons_append, List.length_cons, List.length_append] at hsteps
    have hmore := ih hus (Nat.le_trans (by omega) hsteps)
    rw [readSegments, Tokens.not_isEmpty_of_tokens hts, if_neg Bool.false_ne_true, hread]
    simp only [bind, Except.bind, hmore]
    rfl

/-- A query of one segment is read where the segment is. -/
theorem Query.parse_of_readSegment {source : String} {segment : Segment}
    (isText : Token.IsText false (.symbol "*" :: tokens) source.toList) (nonempty : tokens ≠ [])
    (h : ∀ {ts : Tokens}, ts.tokens = tokens → Finds (readSegment ts) (· = segment) []) :
    Query.parse source = .ok ⟨[segment]⟩ := by
  obtain ⟨ts, hstream, hts⟩ := Token.stream_of_isText isText
  have hsegment := Tokens.tokens_tail hts
  obtain ⟨first, more, rfl⟩ := List.exists_cons_of_ne_nil nonempty
  obtain ⟨steps, hsteps⟩ : ∃ steps, ts.tail.rest.length = steps + 1 :=
    ⟨more.length, (Tokens.length_of_tokens hsegment).symm⟩
  obtain ⟨_, us, hread, rfl, hus⟩ := h hsegment
  simp only [Query.parse, hstream, Except.mapError, bind, Except.bind, Tokens.not_isEmpty_of_tokens hts,
    Tokens.eat?_of_tokens hts, hsteps, readSegments, Tokens.not_isEmpty_of_tokens hsegment, hread,
    Tokens.isEmpty_of_tokens hus, Bool.false_eq_true, if_false, if_true]
  rfl

end Segments

def Query.IsWrittenAs (query : Query) (source : String) : Prop :=
  ∃ tokens, WritesSegments query.segments tokens ∧ Token.IsText false (.symbol "*" :: tokens) source.toList

/-- Every query is written as some text, and each such text is read as that query. -/
theorem Query.parse_eq_of_isWrittenAs {query : Query} (plain : query.IsPlain) :
    (∃ source, query.IsWrittenAs source) ∧
      ∀ source, query.IsWrittenAs source → Query.parse source = .ok query := by
  constructor
  · obtain ⟨tokens, spelled, writes⟩ := exists_writesSegments plain
    have starred : Token.Spelled false (.symbol "*" :: tokens) := spelled.mark (by decide)
    obtain ⟨source, isText⟩ := starred.exists_isText
    exact ⟨source, tokens, writes, isText⟩
  · rintro source ⟨tokens, writes, isText⟩
    obtain ⟨ts, hstream, hts⟩ := Token.stream_of_isText isText
    have hsegments := Tokens.tokens_tail hts
    have enough : tokens.length + 1 ≤ ts.tail.rest.length + 1 := by
      rw [Tokens.length_of_tokens hsegments]
    have hread := writes.readSegments_eq hsegments enough
    simp only [Query.parse, hstream, Except.mapError, bind, Except.bind, Tokens.not_isEmpty_of_tokens hts,
      Tokens.eat?_of_tokens hts, hread, Bool.false_eq_true, if_false]
    rfl

theorem parse_isWrittenAs_slice :
    let query : Query := ⟨[.slice 0 (-1) true, .filter (.not (.path [.key "a"])),
      .order [([.index 2], .descending)], .projection [.spread]]⟩
    query.IsPlain ∧ Query.parse "*[0..-1][(!@.a)]|order(@[2] desc)\x7b...\x7d" = .ok query := by
  intro query
  have exactKey : Exact [.key "a"] := by
    rintro position (_ | ⟨_, ⟨⟩⟩)
  have exactIndex : Exact [.index 2] := by
    rintro position (_ | ⟨_, ⟨⟩⟩)
    decide
  have plainKey : IsPlainPath [.key "a"] := by
    refine ⟨?_, exactKey⟩
    rintro name (_ | ⟨_, ⟨⟩⟩)
    decide +kernel
  have plainIndex : IsPlainPath [.index 2] := by
    refine ⟨?_, exactIndex⟩
    rintro name (_ | ⟨_, ⟨⟩⟩)
  have plain : query.IsPlain := by
    have slice : Segment.IsPlain (.slice 0 (-1) true) := .slice true (by decide) (by decide)
    have filter : Segment.IsPlain (.filter (.not (.path [.key "a"]))) := .filter (.not (.path plainKey))
    have order : Segment.IsPlain (.order [([.index 2], .descending)]) :=
      .order (List.cons_ne_nil _ _) (List.forall_mem_singleton.mpr plainIndex)
    have projection : Segment.IsPlain (.projection [.spread]) :=
      .projection (List.forall_mem_singleton.mpr .spread)
    simp only [Query.IsPlain, query, List.forall_mem_cons]
    exact ⟨slice, filter, order, projection, fun _ h => (List.not_mem_nil h).elim⟩
  have written : query.IsWrittenAs "*[0..-1][(!@.a)]|order(@[2] desc)\x7b...\x7d" := by
    refine ⟨[.symbol "[", .number (.ofNat 0), .symbol "..", .symbol "-", .number (.ofNat 1), .symbol "]",
      .symbol "[", .symbol "(", .symbol "!", .symbol "@", .symbol ".", .ident "a", .symbol ")", .symbol "]",
      .symbol "|", .ident "order", .symbol "(", .symbol "@", .symbol "[", .number (.ofNat 2), .symbol "]",
      .ident "desc", .symbol ")", .symbol "\x7b", .symbol "...", .symbol "\x7d"], ?_, ?_⟩
    · have slice : WritesSegment (.slice 0 (-1) true) _ := .slice true (by decide) (by decide)
      have condition : WritesUnary (.not (.path [.key "a"])) _ := .not (.only (.only (.path exactKey)))
      have filter : WritesSegment (.filter (.not (.path [.key "a"]))) _ := .filter (.only (.only condition))
      have order : WritesSegment (.order [([.index 2], .descending)]) _ := .order (.last exactIndex)
      have projection : WritesSegment (.projection [.spread]) _ := .projection (.last .spread)
      exact .cons slice (.cons filter (.cons order (.cons projection .nil)))
    · have hsource : "*[0..-1][(!@.a)]|order(@[2] desc)\x7b...\x7d".toList = ['*', '[', '0', '.', '.', '-', '1', ']',
          '[', '(', '!', '@', '.', 'a', ')', ']', '|', 'o', 'r', 'd', 'e', 'r', '(', '@', '[', '2', ']', ' ',
          'd', 'e', 's', 'c', ')', '\x7b', '.', '.', '.', '\x7d'] := by
        decide
      rw [hsource]
      refine .token (.symbol (by decide) (by decide)) ?_
      refine .token (.symbol (by decide) (by decide)) ?_
      refine .token (.natural 0 ⟨by decide, by decide, by decide, by decide⟩) ?_
      refine .token (.symbol (by decide) (by decide)) ?_
      refine .token (.symbol (by decide) (by decide)) ?_
      refine .token (.natural 1 ⟨by decide, by decide, by decide, by decide⟩) ?_
      refine .token (.symbol (by decide) (by decide)) ?_
      refine .token (.symbol (by decide) (by decide)) ?_
      refine .token (.symbol (by decide) (by decide)) ?_
      refine .token (.symbol (by decide) (by decide)) ?_
      refine .token (.symbol (by decide) (by decide)) ?_
      refine .token (.symbol (by decide) (by decide)) ?_
      refine .token (.name (by decide +kernel) ⟨by decide +kernel, nofun⟩) ?_
      refine .token (.symbol (by decide) (by decide)) ?_
      refine .token (.symbol (by decide) (by decide)) ?_
      refine .token (.symbol (by decide) (by decide)) ?_
      refine .token (.name (by decide +kernel) ⟨by decide +kernel, nofun⟩) ?_
      refine .token (.symbol (by decide) (by decide)) ?_
      refine .token (.symbol (by decide) (by decide)) ?_
      refine .token (.symbol (by decide) (by decide)) ?_
      refine .token (.natural 2 ⟨by decide, by decide, by decide, by decide⟩) ?_
      refine .token (.symbol (by decide) (by decide)) (.blank (by decide +kernel) ?_)
      refine .token (.name (by decide +kernel) ⟨by decide +kernel, nofun⟩) ?_
      refine .token (.symbol (by decide) (by decide)) ?_
      refine .token (.symbol (by decide) (by decide)) ?_
      refine .token (.symbol (by decide) (by decide)) ?_
      exact .token (.symbol (by decide) (by decide)) .nil
  exact ⟨plain, (Query.parse_eq_of_isWrittenAs plain).2 _ written⟩

end Tabulate.Groq
