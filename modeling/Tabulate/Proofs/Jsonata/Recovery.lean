import Tabulate.Proofs.Jsonata.Writing

/-! The parser finds in every writing of a tree that tree. -/
namespace Tabulate.Jsonata

def infixPower? : Token → Option Nat
  | .symbol "." => some pathPower
  | .symbol "[" => some predicatePower
  | .symbol "?" => some conditionPower
  | token => (BinaryOp.ofToken? token).map BinaryOp.power

def Stops (power : Nat) (rest : List Token) : Prop :=
  ∀ token ∈ rest.head?, ∀ next ∈ infixPower? token, next < power

/-- What may follow a tree at a place: no operator of a higher power, and after a whole tree no other
half of a condition either. -/
def Ends (place : Nat) (rest : List Token) : Prop :=
  ∀ token ∈ rest.head?, (∀ next ∈ infixPower? token, next ≤ place) ∧ (place = 0 → token ≠ .symbol ":")

def Enough (fuel : Nat) (tokens : List Token) : Prop := 4 * tokens.length + 4 ≤ fuel

section Following
variable {place power : Nat} {rest : List Token}

private theorem infixPower?_pos {token : Token} {next : Nat} (h : next ∈ infixPower? token) : 0 < next := by
  unfold infixPower? at h
  split at h
  · cases h; decide
  · cases h; decide
  · cases h; decide
  · obtain ⟨op, -, rfl⟩ := Option.map_eq_some_iff.mp h
    cases op <;> decide

private theorem infixPower?_of_op {token : Token} {op : BinaryOp} (h : BinaryOp.ofToken? token = some op) :
    infixPower? token = some op.power := by
  unfold infixPower?
  split
  next => cases h
  next => cases h
  next => cases h
  next => rw [h, Option.map_some]

theorem Ends.mono (h : Ends place rest) (le : place ≤ power) : Ends power rest := by
  intro token mem
  refine ⟨fun next hnext => ((h token mem).1 next hnext).trans le, fun hpower => (h token mem).2 ?_⟩
  omega

theorem Ends.stops (h : Ends place rest) (lt : place < power) : Stops power rest :=
  fun token mem next hnext => ((h token mem).1 next hnext).trans_lt lt

theorem Ends.stops_zero (h : Ends 0 rest) : Stops power rest := by
  intro token mem next hnext
  have hle := (h token mem).1 next hnext
  have hpos := infixPower?_pos hnext
  omega

theorem ends_operator {token : Token} {more : List Token} (h : infixPower? token = some place) :
    Ends place (token :: more) := by
  intro token' mem
  cases mem
  refine ⟨fun next hnext => (Option.some.inj (h.symm.trans hnext)).ge, fun hplace => ?_⟩
  have hpos := infixPower?_pos h
  omega

def closers : List String := [")", "]", "\x7d"]

/-- Any tree may end before a comma or the end of a list. -/
theorem ends_symbol {symbol : String} (h : symbol ∈ "," :: closers) (more : List Token) (place : Nat) :
    Ends place (.symbol symbol :: more) := by
  have hall : ∀ symbol ∈ "," :: closers, infixPower? (.symbol symbol) = none ∧ symbol ≠ ":" := by
    decide
  obtain ⟨hnone, hcolon⟩ := hall symbol h
  intro token mem
  cases mem
  refine ⟨fun next hnext => ?_, fun _ heq => hcolon (Token.symbol.inj heq)⟩
  rw [hnone] at hnext
  contradiction

theorem stops_nil (power : Nat) : Stops power [] := fun _ mem => nomatch mem

private theorem stops_colon (more : List Token) (power : Nat) : Stops power (.symbol ":" :: more) := by
  intro token mem
  cases mem
  exact fun next hnext => (nomatch hnext)

private theorem ends_colon (more : List Token) (h : 0 < place) : Ends place (.symbol ":" :: more) := by
  intro token mem
  cases mem
  exact ⟨fun next hnext => (nomatch hnext), fun hplace => absurd hplace h.ne'⟩

end Following

def Opens (tokens : List Token) : Prop :=
  ∃ first more, tokens = first :: more ∧ ∀ close ∈ closers, first ≠ .symbol close

section Opening
variable {tokens before : List Token}

theorem Opens.append (h : Opens before) (after : List Token) : Opens (before ++ after) := by
  obtain ⟨first, more, rfl, hfirst⟩ := h
  exact ⟨first, more ++ after, rfl, hfirst⟩

theorem Opens.head?_ne (h : Opens tokens) {close : String} (mem : close ∈ closers) :
    tokens.head? ≠ some (.symbol close) := by
  obtain ⟨first, more, rfl, hfirst⟩ := h
  exact fun heq => hfirst close mem (Option.some.inj heq)

private theorem opens_symbol {symbol : String} (h : symbol ∉ closers) (more : List Token) :
    Opens (.symbol symbol :: more) := by
  refine ⟨_, more, rfl, ?_⟩
  rintro close mem heq
  exact h (Token.symbol.inj heq ▸ mem)

theorem Writes.opens {place : Nat} {node : Node} {tokens : List Token} : Writes place node tokens → Opens tokens
  | .atom isAtom => by
    refine ⟨_, [], rfl, ?_⟩
    cases isAtom <;> simp [closers]
  | .path _ left _ => left.opens.append _
  | .filter _ left _ => left.opens.append _
  | .toArray _ left => left.opens.append _
  | .binary _ _ _ left _ => left.opens.append _
  | .negate _ _ => opens_symbol (by decide) _
  | .whether test _ => test.opens.append _
  | .choice test _ _ => test.opens.append _
  | .array _ => opens_symbol (by decide) _
  | .object _ => opens_symbol (by decide) _
  | .call _ => ⟨_, _, rfl, by simp⟩
  | .parentheses _ => opens_symbol (by decide) _

theorem WritesItems.opens {items : List Node} (h : WritesItems items tokens) (hitems : items ≠ []) :
    Opens tokens := by
  cases h with
  | nil => exact absurd rfl hitems
  | last item => exact item.opens
  | more item _ => exact item.opens.append _

theorem WritesEntries.opens {entries : List (Node × Node)} (h : WritesEntries entries tokens)
    (hentries : entries ≠ []) : Opens tokens := by
  cases h with
  | nil => exact absurd rfl hentries
  | last key _ => exact key.opens.append _
  | more key _ _ => exact key.opens.append _

end Opening

section Steps
variable {fuel power : Nat} {ts : Tokens} {node : Node} {token : Token} {more : List Token}
attribute [local simp] readOperators readOperand

/-- An operator that binds less tightly is left to what is around the operand. -/
theorem readOperators_stop (h : Stops power ts.tokens) :
    readOperators (fuel + 1) power node ts = .ok (node, ts) := by
  rw [readOperators, Tokens.peek?_eq_head?]
  split
  next => rfl
  next hnext => exact if_pos (h _ hnext _ rfl)
  next hnext => exact if_pos (h _ hnext _ rfl)
  next hnext => exact if_pos (h _ hnext _ rfl)
  next other _ _ _ hnext =>
    split
    next => rfl
    next op hop => exact if_pos (h other hnext op.power (infixPower?_of_op hop))

theorem readOperators_path (h : ts.tokens = .symbol "." :: more) (le : power ≤ pathPower) :
    readOperators (fuel + 1) power node ts = (do
      let (right, ts) ← readExpression fuel (pathPower + 1) ts.tail
      readOperators fuel power (.path node right) ts) := by
  rw [readOperators, Tokens.peek?_of_tokens h]
  exact if_neg (Nat.not_lt.mpr le)

private theorem readOperators_binary {op : BinaryOp} (h : ts.tokens = token :: more)
    (isOp : BinaryOp.ofToken? token = some op) (le : power ≤ op.power) :
    readOperators (fuel + 1) power node ts = (do
      let (right, after) ← readExpression fuel (op.power + 1) ts.tail
      readOperators fuel power (.binary op node right ts.position) after) := by
  rw [readOperators, Tokens.peek?_of_tokens h]
  split
  next hnext => cases hnext
  next hnext => cases hnext; cases isOp
  next hnext => cases hnext; cases isOp
  next hnext => cases hnext; cases isOp
  next other _ _ _ hnext =>
    obtain rfl := Option.some.inj hnext
    rw [isOp]
    exact if_neg (Nat.not_lt.mpr le)

private theorem readOperators_toArray (h : ts.tokens = .symbol "[" :: .symbol "]" :: more)
    (le : power ≤ predicatePower) :
    readOperators (fuel + 1) power node ts = readOperators fuel power (.toArray node) ts.tail.tail := by
  have htail := Tokens.tokens_tail h
  simp [Tokens.peek?_of_tokens h, Tokens.eat?_of_tokens htail, Nat.not_lt.mpr le]

theorem readOperators_filter (h : ts.tokens = .symbol "[" :: more) (opens : Opens more)
    (le : power ≤ predicatePower) :
    readOperators (fuel + 1) power node ts = (do
      let (predicate, ts) ← readExpression fuel 0 ts.tail
      let ts ← expect ts "]"
      readOperators fuel power (.filter node predicate) ts) := by
  have htail : ts.tail.eat? "]" = none := by
    apply Tokens.eat?_of_ne
    rw [Tokens.tokens_tail h]
    exact opens.head?_ne (by decide)
  simp [Tokens.peek?_of_tokens h, htail, Nat.not_lt.mpr le]

private theorem readOperators_condition (h : ts.tokens = .symbol "?" :: more) :
    readOperators (fuel + 1) 0 node ts = (do
      let (yes, ts) ← readExpression fuel 0 ts.tail
      match ts.eat? ":" with
      | some ts => do
        let (no, ts) ← readExpression fuel conditionPower ts
        readOperators fuel 0 (.condition node yes (some no)) ts
      | none => readOperators fuel 0 (.condition node yes none) ts) := by
  rw [readOperators, Tokens.peek?_of_tokens h]
  exact if_neg (Nat.not_lt.mpr (Nat.zero_le _))

theorem readOperand_atom (atom : IsAtom node token) (h : ts.tokens = token :: more) :
    readOperand (fuel + 1) ts = .ok (node, ts.tail) := by
  cases atom <;> simp [Tokens.peek?_of_tokens h]

theorem readOperand_call {function : Function} (h : ts.tokens = .dollar function.name :: .symbol "(" :: more) :
    readOperand (fuel + 1) ts = (do
      let (args, after) ← readList fuel ")" ts.tail.tail
      return (.call function args ts.position, after)) := by
  have heat := Tokens.eat?_of_tokens (Tokens.tokens_tail h)
  have hname : Function.ofName? function.name = some function := by
    cases function <;> decide
  have hplain : function.name ≠ "" ∧ function.name ≠ "$" := by
    cases function <;> decide
  simp [Tokens.peek?_of_tokens h, hplain.1, hplain.2, heat, hname, Node.call]

theorem expect_of_tokens {symbol : String} (h : ts.tokens = .symbol symbol :: more) :
    expect ts symbol = .ok ts.tail := by
  rw [expect, Tokens.eat?_of_tokens h]

private theorem readOperand_parenthesis (h : ts.tokens = .symbol "(" :: more) :
    readOperand (fuel + 1) ts = (do
      let (inner, ts) ← readExpression fuel 0 ts.tail
      return (inner, ← expect ts ")")) := by
  simp [Tokens.peek?_of_tokens h]

private theorem readOperand_bracket (h : ts.tokens = .symbol "[" :: more) :
    readOperand (fuel + 1) ts = (do
      let (items, ts) ← readList fuel "]" ts.tail
      return (.array items, ts)) := by
  simp [Tokens.peek?_of_tokens h]

theorem readOperand_minus (h : ts.tokens = .symbol "-" :: more) :
    readOperand (fuel + 1) ts = (do
      let (operand, rest) ← readExpression fuel pathPower ts.tail
      return (.negate operand ts.position, rest)) := by
  simp [Tokens.peek?_of_tokens h]

private theorem readOperand_emptyBraces (h : ts.tokens = .symbol "\x7b" :: .symbol "\x7d" :: more) :
    readOperand (fuel + 1) ts = .ok (.object [], ts.tail.tail) := by
  have heat := Tokens.eat?_of_tokens (Tokens.tokens_tail h)
  simp [Tokens.peek?_of_tokens h, heat]

private theorem readOperand_brace (h : ts.tokens = .symbol "\x7b" :: more)
    (opens : Opens more) :
    readOperand (fuel + 1) ts = (do
      let (entries, ts) ← readEntries fuel ts.tail
      return (.object entries, ts)) := by
  have heat : ts.tail.eat? "\x7d" = none := by
    apply Tokens.eat?_of_ne
    rw [Tokens.tokens_tail h]
    exact opens.head?_ne (by decide)
  simp [Tokens.peek?_of_tokens h, heat]

end Steps

section Resuming
variable {fuel power steps : Nat} {ts : Tokens} {node : Node} {token : Token} {rest more : List Token}

private theorem enough_of_le (h : 4 * more.length + 6 ≤ steps) : Enough steps more :=
  Nat.le_trans (by omega) h

private theorem suffix_mark (before : List Token) (mark : Token) (after : List Token) :
    after <:+ before ++ mark :: after := (List.suffix_cons _ _).trans (List.suffix_append _ _)

private theorem Enough.of_suffix (h : Enough fuel more) (ends : rest <:+ more) : Enough fuel rest := by
  have shorter := ends.length_le
  unfold Enough at *
  omega

/-- Where no operator follows that is read next, the tree is what is found. -/
theorem finds_of_stops
    (h : Resumes 4 (readExpression fuel power ts) (readOperators · power) (·.unplaced = node.unplaced) rest)
    (stops : Stops power rest) : Finds (readExpression fuel power ts) (·.unplaced = node.unplaced) rest := by
  apply h.finds
  rintro steps found us rfl
  exact readOperators_stop stops

private theorem finds_whole {symbol : String}
    (h : Resumes 4 (readExpression fuel 0 ts) (readOperators · 0) (·.unplaced = node.unplaced)
      (.symbol symbol :: more)) (mem : symbol ∈ "," :: closers) :
    Finds (readExpression fuel 0 ts) (·.unplaced = node.unplaced) (.symbol symbol :: more) :=
  finds_of_stops h (ends_symbol mem more 0).stops_zero

private theorem resumes_of_operand (enough : Enough fuel (token :: more)) (ends : rest <:+ more)
    (h : ∀ steps, 4 * more.length + 6 ≤ steps →
      Finds (readOperand (steps + 1) ts) (·.unplaced = node.unplaced) rest) :
    Resumes 4 (readExpression fuel power ts) (readOperators · power) (·.unplaced = node.unplaced) rest := by
  obtain ⟨steps, rfl, hsteps⟩ := exists_step enough
  rw [List.length_cons] at hsteps
  obtain ⟨steps, rfl, hmore⟩ := exists_step hsteps
  have shorter := ends.length_le
  have enoughRest : 4 * rest.length + 1 ≤ steps + 1 := by omega
  rw [readExpression]
  exact .start (readOperators · power) (h steps (by omega)) enoughRest

/-- Wherever the tokens of a tree stand at a place, the tree is found, and reading goes on behind it. -/
def IsFoundAt (place : Nat) (node : Node) (tokens : List Token) : Prop :=
  ∀ {fuel power : Nat} {ts : Tokens} {rest : List Token}, ts.tokens = tokens ++ rest → Ends place rest →
    power ≤ place → Enough fuel (tokens ++ rest) →
      Resumes 4 (readExpression fuel power ts) (readOperators · power) (·.unplaced = node.unplaced) rest

end Resuming

section Lists
variable {fuel : Nat} {close : String} {ts : Tokens} {items : List Node} {rest inner more : List Token}

private theorem eat?_comma (h : ts.tokens = .symbol "," :: more) (mem : close ∈ closers) :
    ts.eat? close = none := by
  apply Tokens.eat?_of_ne
  rw [h, List.head?_cons]
  intro heq
  have hcomma : "," ∉ closers := by decide
  exact hcomma (Token.symbol.inj (Option.some.inj heq) ▸ mem)

def FindsItems (items : List Node) (tokens : List Token) : Prop :=
  ∀ {fuel : Nat} {close : String} {ts : Tokens} {rest : List Token}, close ∈ closers →
    ts.tokens = tokens ++ .symbol close :: rest → 4 * (tokens ++ .symbol close :: rest).length + 5 ≤ fuel →
      Finds (readItems fuel close ts) (unplacedItems · = unplacedItems items) rest

private theorem finds_list (writes : WritesItems items inner) (h : items ≠ [] → FindsItems items inner)
    (mem : close ∈ closers) (hts : ts.tokens = inner ++ .symbol close :: rest)
    (enough : 4 * (inner ++ .symbol close :: rest).length + 6 ≤ fuel) :
    Finds (readList fuel close ts) (unplacedItems · = unplacedItems items) rest := by
  obtain ⟨steps, rfl, hsteps⟩ := exists_step enough
  rw [readList]
  by_cases hitems : items = []
  · subst hitems
    cases writes
    rw [Tokens.eat?_of_tokens hts]
    exact .ok rfl (Tokens.tokens_tail hts)
  · have hclose : ts.eat? close = none := by
      apply Tokens.eat?_of_ne
      rw [hts]
      exact ((writes.opens hitems).append _).head?_ne mem
    rw [hclose]
    exact h hitems mem hts hsteps

def FindsEntries (entries : List (Node × Node)) (tokens : List Token) : Prop :=
  ∀ {fuel : Nat} {ts : Tokens} {rest : List Token}, ts.tokens = tokens ++ .symbol "\x7d" :: rest →
    4 * (tokens ++ .symbol "\x7d" :: rest).length + 5 ≤ fuel →
      Finds (readEntries fuel ts) (unplacedEntries · = unplacedEntries entries) rest

private theorem finds_entry {key value : Node} {symbol : String} {before after behind : List Token}
    {q : List (Node × Node) → Prop} (hkey : IsFoundAt conditionPower key before) (hvalue : IsFoundAt 0 value after)
    (mem : symbol ∈ "," :: closers)
    (hts : ts.tokens = before ++ .symbol ":" :: (after ++ .symbol symbol :: behind))
    (enough : Enough fuel (before ++ .symbol ":" :: (after ++ .symbol symbol :: behind)))
    (hnext : ∀ found found' us, found.unplaced = key.unplaced → found'.unplaced = value.unplaced →
      us.tokens = .symbol symbol :: behind →
        Finds (match us.eat? "\x7d" with
          | some ts => return ([(found, found')], ts)
          | none => do
            let (more, ts) ← readEntries fuel (← expect us ",")
            return ((found, found') :: more, ts)) q rest) : Finds (readEntries (fuel + 1) ts) q rest := by
  rw [readEntries]
  apply (finds_of_stops (hkey hts (ends_colon _ (by decide)) (Nat.zero_le _) enough) (stops_colon _ _)).bind
  intro found us hfound hus
  simp only [expect_of_tokens hus]
  have hafter := Enough.of_suffix enough (suffix_mark _ _ _)
  have hresumes := hvalue (Tokens.tokens_tail hus) (ends_symbol mem behind 0) (Nat.le_refl _) hafter
  apply (finds_whole hresumes mem).bind
  intro found' us' hfound' hus'
  exact hnext found found' us' hfound hfound' hus'

private theorem finds_object {entries : List (Node × Node)} (writes : WritesEntries entries inner)
    (h : entries ≠ [] → FindsEntries entries inner)
    (hts : ts.tokens = .symbol "\x7b" :: (inner ++ .symbol "\x7d" :: rest))
    (enough : 4 * (inner ++ .symbol "\x7d" :: rest).length + 5 ≤ fuel) :
    Finds (readOperand (fuel + 1) ts) (·.unplaced = Node.unplaced (.object entries)) rest := by
  by_cases hentries : entries = []
  · subst hentries
    cases writes
    rw [readOperand_emptyBraces hts]
    exact .ok rfl (Tokens.tokens_tail (Tokens.tokens_tail hts))
  · rw [readOperand_brace hts ((writes.opens hentries).append _)]
    apply (h hentries (Tokens.tokens_tail hts) enough).bind
    intro found us hfound hus
    exact .ok (by simp only [Node.unplaced, hfound]) hus

end Lists

namespace IsFoundAt
variable {place : Nat} {before between after inner : List Token} {token : Token}

private theorem atom {node : Node} (isAtom : IsAtom node token) : IsFoundAt place node [token] := by
  intro fuel power ts rest hts _ _ enough
  apply resumes_of_operand enough List.suffix_rfl
  intro steps _
  rw [readOperand_atom isAtom hts]
  exact .ok rfl (Tokens.tokens_tail hts)

section Operators
variable {left right : Node}

private theorem path (bare : place ≤ pathPower) (hleft : IsFoundAt pathPower left before)
    (hright : IsFoundAt (pathPower + 1) right after) :
    IsFoundAt place (.path left right) (before ++ .symbol "." :: after) := by
  intro fuel power ts rest hts ends le enough
  rw [List.append_assoc, List.cons_append] at hts enough
  apply (hleft hts (ends_operator rfl) (le.trans bare) enough).step (by decide) (List.suffix_append _ _)
  intro steps found us hsteps hfound hus
  have hresumes := hright (Tokens.tokens_tail hus) (ends.mono (by omega)) (Nat.le_refl _) hsteps
  obtain ⟨found', us', hread, hfound', hrest⟩ := finds_of_stops hresumes (ends.stops (by omega))
  refine ⟨.path found found', us', by simp only [Node.unplaced, hfound, hfound'], hrest, ?_⟩
  rw [readOperators_path hus (le.trans bare), hread]
  rfl

private theorem filter {predicate : Node} (bare : place ≤ predicatePower)
    (hleft : IsFoundAt predicatePower left before) (hinner : IsFoundAt 0 predicate inner) (opens : Opens inner) :
    IsFoundAt place (.filter left predicate) (before ++ .symbol "[" :: (inner ++ [.symbol "]"])) := by
  intro fuel power ts rest hts ends le enough
  simp only [List.append_assoc, List.cons_append, List.nil_append] at hts enough
  apply (hleft hts (ends_operator rfl) (le.trans bare) enough).step (by decide) (suffix_mark _ _ _)
  intro steps found us hsteps hfound hus
  have hresumes := hinner (Tokens.tokens_tail hus) (ends_symbol (by decide) _ 0) (Nat.le_refl _) hsteps
  obtain ⟨found', us', hread, hfound', hrest⟩ := finds_whole hresumes (by decide)
  refine ⟨.filter found found', us'.tail, by simp only [Node.unplaced, hfound, hfound'], Tokens.tokens_tail hrest, ?_⟩
  rw [readOperators_filter hus (opens.append _) (le.trans bare), hread]
  simp only [bind, Except.bind, expect_of_tokens hrest]

private theorem toArray (bare : place ≤ predicatePower) (hleft : IsFoundAt predicatePower left before) :
    IsFoundAt place (.toArray left) (before ++ [.symbol "[", .symbol "]"]) := by
  intro fuel power ts rest hts ends le enough
  rw [List.append_assoc, List.cons_append] at hts enough
  apply (hleft hts (ends_operator rfl) (le.trans bare) enough).step (by decide) (List.suffix_cons _ _)
  intro steps found us hsteps hfound hus
  refine ⟨.toArray found, us.tail.tail, by simp only [Node.unplaced, hfound], ?_, ?_⟩
  · exact Tokens.tokens_tail (Tokens.tokens_tail hus)
  · exact readOperators_toArray hus (le.trans bare)

private theorem binary {op : BinaryOp} {position : Nat} (bare : place ≤ op.power)
    (isOp : BinaryOp.ofToken? token = some op) (hleft : IsFoundAt op.power left before)
    (hright : IsFoundAt (op.power + 1) right after) :
    IsFoundAt place (.binary op left right position) (before ++ token :: after) := by
  intro fuel power ts rest hts ends le enough
  rw [List.append_assoc, List.cons_append] at hts enough
  have hends : Ends op.power (token :: (after ++ rest)) := ends_operator (infixPower?_of_op isOp)
  apply (hleft hts hends (le.trans bare) enough).step (by decide) (List.suffix_append _ _)
  intro steps found us hsteps hfound hus
  have hresumes := hright (Tokens.tokens_tail hus) (ends.mono (by omega)) (Nat.le_refl _) hsteps
  obtain ⟨found', us', hread, hfound', hrest⟩ := finds_of_stops hresumes (ends.stops (by omega))
  refine ⟨.binary op found found' us.position, us', by simp only [Node.unplaced, hfound, hfound'], hrest, ?_⟩
  rw [readOperators_binary hus isOp (le.trans bare), hread]
  rfl

private theorem negate {operand : Node} {position : Nat} (bare : place < pathPower)
    (hoperand : IsFoundAt pathPower operand after) :
    IsFoundAt place (.negate operand position) (.symbol "-" :: after) := by
  intro fuel power ts rest hts ends le enough
  rw [List.cons_append] at hts enough
  apply resumes_of_operand enough (List.suffix_append _ _)
  intro steps hsteps
  have hresumes := hoperand (Tokens.tokens_tail hts) (ends.mono bare.le) (Nat.le_refl _) (enough_of_le hsteps)
  rw [readOperand_minus hts]
  apply (finds_of_stops hresumes (ends.stops bare)).bind
  intro found us hfound hus
  exact .ok (by simp only [Node.unplaced, hfound]) hus

end Operators

section Conditions
variable {test yes no : Node}

private theorem whether (htest : IsFoundAt conditionPower test before) (hyes : IsFoundAt conditionPower yes after) :
    IsFoundAt 0 (.condition test yes none) (before ++ .symbol "?" :: after) := by
  intro fuel power ts rest hts ends le enough
  obtain rfl := Nat.le_zero.mp le
  rw [List.append_assoc, List.cons_append] at hts enough
  apply (htest hts (ends_operator rfl) (Nat.zero_le _) enough).step (by decide) (List.suffix_append _ _)
  intro steps found us hsteps hfound hus
  have hresumes := hyes (Tokens.tokens_tail hus) (ends.mono (Nat.zero_le _)) (Nat.zero_le _) hsteps
  obtain ⟨found', us', hread, hfound', hrest⟩ := finds_of_stops hresumes ends.stops_zero
  have hcolon : us'.eat? ":" = none := by
    apply Tokens.eat?_of_ne
    intro hnext
    rw [hrest] at hnext
    exact (ends _ hnext).2 rfl rfl
  refine ⟨.condition found found' none, us', by simp only [Node.unplaced, hfound, hfound'], hrest, ?_⟩
  rw [readOperators_condition hus, hread]
  simp only [bind, Except.bind, hcolon]

private theorem choice (htest : IsFoundAt conditionPower test before) (hyes : IsFoundAt conditionPower yes between)
    (hno : IsFoundAt conditionPower no after) :
    IsFoundAt 0 (.condition test yes (some no)) (before ++ .symbol "?" :: (between ++ .symbol ":" :: after)) := by
  intro fuel power ts rest hts ends le enough
  obtain rfl := Nat.le_zero.mp le
  simp only [List.append_assoc, List.cons_append] at hts enough
  have hbehind := (List.suffix_append after rest).trans (suffix_mark between (.symbol ":") _)
  apply (htest hts (ends_operator rfl) (Nat.zero_le _) enough).step (by decide) hbehind
  intro steps found us hsteps hfound hus
  have hresumes := hyes (Tokens.tokens_tail hus) (ends_colon _ (by decide)) (Nat.zero_le _) hsteps
  obtain ⟨found', us', hread, hfound', hus'⟩ := finds_of_stops hresumes (stops_colon _ _)
  have hafter := Enough.of_suffix hsteps (suffix_mark _ _ _)
  have hlast := hno (Tokens.tokens_tail hus') (ends.mono (Nat.zero_le _)) (Nat.le_refl _) hafter
  obtain ⟨last, us'', hreadLast, hfoundLast, hrest⟩ := finds_of_stops hlast ends.stops_zero
  refine ⟨.condition found found' (some last), us'',
    by simp only [Node.unplaced, hfound, hfound', hfoundLast], hrest, ?_⟩
  rw [readOperators_condition hus, hread]
  simp only [bind, Except.bind, Tokens.eat?_of_tokens hus', hreadLast]

end Conditions

section Brackets
variable {items : List Node}

private theorem array (writes : WritesItems items inner) (h : items ≠ [] → FindsItems items inner) :
    IsFoundAt place (.array items) (.symbol "[" :: (inner ++ [.symbol "]"])) := by
  intro fuel power ts rest hts _ _ enough
  simp only [List.append_assoc, List.cons_append, List.nil_append] at hts enough
  apply resumes_of_operand enough (suffix_mark _ _ _)
  intro steps hsteps
  rw [readOperand_bracket hts]
  apply (finds_list writes h (by decide) (Tokens.tokens_tail hts) hsteps).bind
  intro found us hfound hus
  exact .ok (by simp only [Node.unplaced, hfound]) hus

private theorem object {entries : List (Node × Node)} (writes : WritesEntries entries inner)
    (h : entries ≠ [] → FindsEntries entries inner) :
    IsFoundAt place (.object entries) (.symbol "\x7b" :: (inner ++ [.symbol "\x7d"])) := by
  intro fuel power ts rest hts _ _ enough
  simp only [List.append_assoc, List.cons_append, List.nil_append] at hts enough
  apply resumes_of_operand enough (suffix_mark _ _ _)
  intro steps hsteps
  exact finds_object writes h hts (Nat.le_of_succ_le hsteps)

private theorem call {function : Function} {position : Nat} (writes : WritesItems items inner)
    (h : items ≠ [] → FindsItems items inner) :
    IsFoundAt place (.call function items position)
      (.dollar function.name :: .symbol "(" :: (inner ++ [.symbol ")"])) := by
  intro fuel power ts rest hts _ _ enough
  simp only [List.append_assoc, List.cons_append, List.nil_append] at hts enough
  apply resumes_of_operand enough ((suffix_mark _ _ _).trans (List.suffix_cons _ _))
  intro steps hsteps
  rw [readOperand_call hts]
  have hlist := Tokens.tokens_tail (Tokens.tokens_tail hts)
  rw [List.length_cons] at hsteps
  apply (finds_list writes h (by decide) hlist (by omega)).bind
  intro found us hfound hus
  exact .ok (by simp only [Node.call, Node.unplaced, hfound]) hus

private theorem parentheses {node : Node} (hinner : IsFoundAt 0 node inner) :
    IsFoundAt place node (.symbol "(" :: (inner ++ [.symbol ")"])) := by
  intro fuel power ts rest hts _ _ enough
  simp only [List.append_assoc, List.cons_append, List.nil_append] at hts enough
  apply resumes_of_operand enough (suffix_mark _ _ _)
  intro steps hsteps
  have hresumes := hinner (Tokens.tokens_tail hts) (ends_symbol (by decide) _ 0) (Nat.le_refl _)
    (enough_of_le hsteps)
  rw [readOperand_parenthesis hts]
  apply (finds_whole hresumes (by decide)).bind
  intro found us hfound hus
  simp only [expect_of_tokens hus]
  exact .ok hfound (Tokens.tokens_tail hus)

end Brackets
end IsFoundAt

mutual

/-- A tree is found where it is written. -/
theorem Writes.isFoundAt {place : Nat} {node : Node} {tokens : List Token} : Writes place node tokens →
    IsFoundAt place node tokens
  | .atom isAtom => IsFoundAt.atom isAtom
  | .path bare left right => IsFoundAt.path bare left.isFoundAt right.isFoundAt
  | .filter bare left inner => IsFoundAt.filter bare left.isFoundAt inner.isFoundAt inner.opens
  | .toArray bare left => IsFoundAt.toArray bare left.isFoundAt
  | .binary _ bare isOp left right => IsFoundAt.binary bare isOp left.isFoundAt right.isFoundAt
  | .negate bare operand => IsFoundAt.negate bare operand.isFoundAt
  | .whether test yes => IsFoundAt.whether test.isFoundAt yes.isFoundAt
  | .choice test yes no => IsFoundAt.choice test.isFoundAt yes.isFoundAt no.isFoundAt
  | .array items => IsFoundAt.array items items.finds
  | .object entries => IsFoundAt.object entries entries.finds
  | .call args => IsFoundAt.call args args.finds
  | .parentheses inner => IsFoundAt.parentheses inner.isFoundAt

theorem WritesItems.finds {items : List Node} {tokens : List Token} : WritesItems items tokens →
    items ≠ [] → FindsItems items tokens
  | .nil => fun h => absurd rfl h
  | .last item => by
    intro _ fuel close ts rest mem hts enough
    obtain ⟨steps, rfl, hsteps⟩ := exists_step enough
    have mem' : close ∈ "," :: closers := List.mem_cons_of_mem _ mem
    have hitem := item.isFoundAt hts (ends_symbol mem' _ 0) (Nat.le_refl _) hsteps
    rw [readItems]
    apply (finds_whole hitem mem').bind
    intro found us hfound hus
    simp only [Tokens.eat?_of_tokens hus]
    exact .ok (by simp only [unplacedItems, hfound]) (Tokens.tokens_tail hus)
  | .more item more => by
    intro _ fuel close ts rest mem hts enough
    rw [List.append_assoc, List.cons_append] at hts enough
    obtain ⟨steps, rfl, hsteps⟩ := exists_step enough
    have mem' : "," ∈ "," :: closers := List.mem_cons_self
    have hitem := item.isFoundAt hts (ends_symbol mem' _ 0) (Nat.le_refl _) hsteps
    rw [readItems]
    apply (finds_whole hitem mem').bind
    intro found us hfound hus
    simp only [eat?_comma hus mem, expect_of_tokens hus]
    rw [List.length_append, List.length_cons] at enough
    apply (more.finds (List.cons_ne_nil _ _) mem (Tokens.tokens_tail hus) (by omega)).bind
    intro others vs hothers hvs
    exact .ok (by rw [unplacedItems, unplacedItems, hfound, hothers]) hvs

theorem WritesEntries.finds {entries : List (Node × Node)} {tokens : List Token} : WritesEntries entries tokens →
    entries ≠ [] → FindsEntries entries tokens
  | .nil => fun h => absurd rfl h
  | .last key value => by
    intro _ fuel ts rest hts enough
    rw [List.append_assoc, List.cons_append] at hts enough
    obtain ⟨steps, rfl, hsteps⟩ := exists_step enough
    apply finds_entry key.isFoundAt value.isFoundAt (by decide) hts hsteps
    intro found found' us hfound hfound' hus
    simp only [Tokens.eat?_of_tokens hus]
    exact .ok (by simp only [unplacedEntries, hfound, hfound']) (Tokens.tokens_tail hus)
  | .more key value more => by
    intro _ fuel ts rest hts enough
    simp only [List.append_assoc, List.cons_append] at hts enough
    obtain ⟨steps, rfl, hsteps⟩ := exists_step enough
    apply finds_entry key.isFoundAt value.isFoundAt (by decide) hts hsteps
    intro found found' us hfound hfound' hus
    have hbrace : us.eat? "\x7d" = none := eat?_comma hus (by decide)
    simp only [hbrace, expect_of_tokens hus]
    refine Finds.bind (more.finds (List.cons_ne_nil _ _) (Tokens.tokens_tail hus) ?_) ?_
    · simp only [List.length_append, List.length_cons] at enough ⊢
      omega
    · intro others vs hothers hvs
      exact .ok (by rw [unplacedEntries, unplacedEntries, hfound, hfound', hothers]) hvs

end

/-- What the tokens of a text are read as is its expression. -/
theorem Expression.parse_of_finds {source : String} {token : Token} {more : List Token} {p : Node → Prop}
    (isText : Token.IsText false (token :: more) source.toList)
    (h : ∀ {fuel ts}, ts.tokens = token :: more → Enough fuel (token :: more) →
      Finds (readExpression fuel 0 ts) p []) :
    ∃ node, Expression.parse source = .ok ⟨source, node⟩ ∧ p node := by
  obtain ⟨ts, hstream, hts⟩ := Token.stream_of_isText isText
  have enough : Enough (4 * ts.rest.length + 4) (token :: more) := by
    rw [← hts, Enough, Tokens.length_tokens]
  obtain ⟨node, us, hread, hnode, hus⟩ := h hts enough
  refine ⟨node, ?_, hnode⟩
  simp only [Expression.parse, hstream, Except.mapError, bind, Except.bind, Tokens.not_isEmpty_of_tokens hts,
    hread, Tokens.isEmpty_of_tokens hus, if_true, Bool.false_eq_true, if_false, pure, Except.pure]

def IsWrittenAs (node : Node) (source : String) : Prop :=
  ∃ tokens, Writes 0 node tokens ∧ Token.IsText false tokens source.toList

/-- Every tree is written as some text, and from every text that it is written as it is read. -/
theorem Expression.parse_of_isWrittenAs {node : Node} (plain : node.IsPlain) :
    (∃ source, IsWrittenAs node source) ∧
      ∀ source, IsWrittenAs node source →
        ∃ e, Expression.parse source = .ok e ∧ e.source = source ∧ e.root.unplaced = node.unplaced := by
  constructor
  · obtain ⟨tokens, spelled, writes⟩ := plain.isWritable 0
    obtain ⟨source, isText⟩ := spelled.exists_isText
    exact ⟨source, tokens, writes, isText⟩
  · rintro source ⟨tokens, writes, isText⟩
    obtain ⟨ts, hstream, hts⟩ := Token.stream_of_isText isText
    obtain ⟨first, more, hfirst, -⟩ := writes.opens
    have hsome : ts.isEmpty = false := Tokens.not_isEmpty_of_tokens (hts.trans hfirst)
    have hwhole : ts.tokens = tokens ++ [] := hts.trans (List.append_nil tokens).symm
    have enough : Enough (4 * ts.rest.length + 4) (tokens ++ []) := by
      rw [← hwhole, Enough, Tokens.length_tokens]
    have ends : Ends 0 [] := fun _ h => (nomatch h)
    obtain ⟨found, us, hread, hfound, hus⟩ :=
      finds_of_stops (writes.isFoundAt hwhole ends (Nat.le_refl 0) enough) ends.stops_zero
    refine ⟨⟨source, found⟩, ?_, rfl, hfound⟩
    simp only [Expression.parse, hstream, Except.mapError, bind, Except.bind, hsome, hread,
      Tokens.isEmpty_of_tokens hus, if_true, Bool.false_eq_true, if_false, pure, Except.pure]

theorem parse_isWrittenAs_wildcards :
    let filtered := Node.filter .wildcard (.negate .context 0)
    let node := Node.binary .sub .root (.binary .mul .wildcard filtered 0) 0
    node.IsPlain ∧ ∃ e, Expression.parse "$$-* * *[-$]" = .ok e ∧ e.root.unplaced = node := by
  intro filtered node
  have wildcard : Node.wildcard.IsPlain := .atom .wildcard
  have plain : node.IsPlain := .binary (.atom .root) (.binary wildcard (.filter wildcard (.negate (.atom .context))))
  have written : IsWrittenAs node "$$-* * *[-$]" := by
    refine ⟨[.dollar "$", .symbol "-", .symbol "*", .symbol "*", .symbol "*", .symbol "[", .symbol "-",
      .dollar "", .symbol "]"], ?_, ?_⟩
    · have inner : Writes 0 (.negate .context 0) [.symbol "-", .dollar ""] :=
        .negate (by decide) (.atom .context)
      have product : Writes 6 (.binary .mul .wildcard filtered 0)
          [.symbol "*", .symbol "*", .symbol "*", .symbol "[", .symbol "-", .dollar "", .symbol "]"] :=
        .binary .mul (by decide) rfl (.atom .wildcard) (.filter (by decide) (.atom .wildcard) inner)
      exact .binary .sub (by decide) rfl (.atom .root) product
    · have hsource : "$$-* * *[-$]".toList = ['$', '$', '-', '*', ' ', '*', ' ', '*', '[', '-', '$', ']'] := by
        decide
      rw [hsource]
      refine .token (.dollars _) ?_
      refine .token (.symbol (by decide) (by decide)) ?_
      refine .token (.symbol (by decide) (by decide)) (.blank (by decide +kernel) ?_)
      refine .token (.symbol (by decide) (by decide)) (.blank (by decide +kernel) ?_)
      refine .token (.symbol (by decide) (by decide)) ?_
      refine .token (.symbol (by decide) (by decide)) ?_
      refine .token (.symbol (by decide) (by decide)) ?_
      refine .token (.dollar ⟨by decide +kernel, nofun⟩ (by decide)) ?_
      exact .token (.symbol (by decide) (by decide)) .nil
  obtain ⟨e, hparse, -, hroot⟩ := (Expression.parse_of_isWrittenAs plain).2 _ written
  exact ⟨plain, e, hparse, hroot⟩

end Tabulate.Jsonata
