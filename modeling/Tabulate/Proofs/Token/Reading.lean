import Tabulate.Token.Basic

/-! What a parser does next depends on the tokens that are left and not on where they stand. -/
namespace Tabulate

namespace Tokens
variable {ts : Tokens} {token : Token} {symbol word : String} {more : List Token}

def tokens (ts : Tokens) : List Token := ts.rest.map (·.token)

theorem length_tokens (ts : Tokens) : ts.tokens.length = ts.rest.length := List.length_map _

theorem length_of_tokens (h : ts.tokens = more) : more.length = ts.rest.length := by
  rw [← h, length_tokens]

theorem peek?_eq_head? (ts : Tokens) : ts.peek? = ts.tokens.head? := List.head?_map.symm

private theorem peekSecond?_eq (ts : Tokens) : ts.peekSecond? = ts.tokens[1]? := List.getElem?_map.symm

theorem peek?_of_tokens (h : ts.tokens = token :: more) : ts.peek? = some token := by
  rw [peek?_eq_head?, h, List.head?_cons]

theorem peekSecond?_of_tokens (h : ts.tokens = token :: more) : ts.peekSecond? = more.head? := by
  rw [peekSecond?_eq, h, List.getElem?_cons_succ, List.head?_eq_getElem?]

theorem tokens_tail (h : ts.tokens = token :: more) : ts.tail.tokens = more := by
  rw [tokens, tail, List.map_tail]
  exact congrArg List.tail h

theorem isEmpty_of_tokens (h : ts.tokens = []) : ts.isEmpty = true := by
  rw [isEmpty, List.map_eq_nil_iff.mp h, List.isEmpty_nil]

theorem not_isEmpty_of_tokens (h : ts.tokens = token :: more) : ts.isEmpty = false := by
  rw [isEmpty, List.isEmpty_eq_false_iff]
  rintro hrest
  rw [tokens, hrest] at h
  contradiction

theorem eat?_of_tokens (h : ts.tokens = .symbol symbol :: more) : ts.eat? symbol = some ts.tail := by
  rw [eat?, startsWith, peek?_of_tokens h, beq_self_eq_true, if_pos rfl]

theorem eat?_of_ne (h : ts.tokens.head? ≠ some (.symbol symbol)) : ts.eat? symbol = none := by
  rw [eat?, startsWith, peek?_eq_head?, beq_eq_false_iff_ne.mpr h, if_neg Bool.false_ne_true]

theorem eatWord?_of_tokens {name : String} (h : ts.tokens = .ident name :: more)
    (same : sameWord name word = true) : ts.eatWord? word = some ts.tail := by
  rw [eatWord?, startsWithWord, peek?_of_tokens h]
  exact if_pos same

theorem eatWord?_of_ne (h : ∀ name, ts.tokens.head? = some (.ident name) → sameWord name word = false) :
    ts.eatWord? word = none := by
  rw [eatWord?, startsWithWord, peek?_eq_head?]
  split
  next name hname => exact if_neg (by simp [h name hname])
  next => exact if_neg Bool.false_ne_true

end Tokens

def Follows (kinds : List Token) (rest : List Token) : Prop := ∀ token ∈ rest.head?, token ∈ kinds

section Following
variable {kinds more rest : List Token} {token : Token}

theorem follows_nil (kinds : List Token) : Follows kinds [] := by
  rintro _ ⟨⟩

theorem follows_cons (mem : token ∈ kinds) (rest : List Token) : Follows kinds (token :: rest) := by
  rintro _ ⟨⟩
  exact mem

theorem Follows.mono (h : Follows kinds rest) (subset : kinds ⊆ more) : Follows more rest :=
  fun token mem => subset (h token mem)

theorem Follows.head?_ne (h : Follows kinds rest) (notMem : token ∉ kinds) : rest.head? ≠ some token :=
  fun heq => notMem (h token heq)

end Following

/-- A reader with more steps than it needs has one to take. -/
theorem exists_step {n m : Nat} (enough : n + 1 ≤ m) : ∃ k, m = k + 1 ∧ n ≤ k := by
  obtain ⟨k, rfl⟩ := Nat.exists_eq_add_of_le' enough
  exact ⟨k + n, rfl, Nat.le_add_left n k⟩

/-- A reader finds something of a kind, and stops before `rest`. -/
def Finds {ε α : Type} (x : Except ε (α × Tokens)) (p : α → Prop) (rest : List Token) : Prop :=
  ∃ a ts, x = .ok (a, ts) ∧ p a ∧ ts.tokens = rest

namespace Finds
variable {ε α β : Type} {x : Except ε (α × Tokens)} {p : α → Prop} {q : β → Prop} {rest more : List Token}

theorem ok {a : α} {ts : Tokens} (h : p a) (hts : ts.tokens = rest) : Finds (ε := ε) (.ok (a, ts)) p rest :=
  ⟨a, ts, rfl, h, hts⟩

theorem bind {f : α × Tokens → Except ε (β × Tokens)} (first : Finds x p more)
    (next : ∀ a ts, p a → ts.tokens = more → Finds (f (a, ts)) q rest) : Finds (x >>= f) q rest := by
  obtain ⟨a, ts, rfl, ha, hts⟩ := first
  exact next a ts ha hts

end Finds

/-- A reader finds something of a kind before `rest` and goes on with what may follow it. For each token
that is left it has so many steps. -/
def Resumes {ρ α : Type} (pace : Nat) (x : ρ) (more : Nat → α → Tokens → ρ) (p : α → Prop)
    (rest : List Token) : Prop :=
  ∃ steps a ts, pace * rest.length + 1 ≤ steps ∧ p a ∧ ts.tokens = rest ∧ x = more steps a ts

namespace Resumes
variable {ε α : Type} {x y : Except ε (α × Tokens)} {more : Nat → α → Tokens → Except ε (α × Tokens)}
  {p q : α → Prop} {pace steps : Nat} {token : Token} {after rest : List Token}

/-- What a part of a reader finds is what the reader goes on from. -/
theorem start (more : Nat → α → Tokens → Except ε (α × Tokens)) (first : Finds x p rest)
    (enough : pace * rest.length + 1 ≤ steps) :
    Resumes pace (do let (a, ts) ← x; more steps a ts) more p rest := by
  obtain ⟨a, ts, rfl, ha, hts⟩ := first
  exact ⟨steps, a, ts, enough, ha, hts, rfl⟩

/-- Where nothing follows that is read, the reader is done. -/
theorem finds (h : Resumes pace x more p rest)
    (stop : ∀ steps a ts, ts.tokens = rest → more (steps + 1) a ts = .ok (a, ts)) : Finds x p rest := by
  obtain ⟨steps, a, ts, enough, ha, hts, rfl⟩ := h
  obtain ⟨steps, rfl, -⟩ := exists_step enough
  rw [stop steps a ts hts]
  exact .ok ha hts

/-- A token follows that leads to more of the same. -/
theorem step (h : Resumes pace x more p (token :: after)) (pos : 0 < pace) (ends : rest <:+ after)
    (next : ∀ steps a ts, pace * after.length + pace ≤ steps → p a → ts.tokens = token :: after →
      ∃ b us, q b ∧ us.tokens = rest ∧ more (steps + 1) a ts = more steps b us) :
    Resumes pace x more q rest := by
  obtain ⟨steps, a, ts, enough, ha, hts, rfl⟩ := h
  obtain ⟨steps, rfl, hsteps⟩ := exists_step enough
  obtain ⟨b, us, hb, hus, hnext⟩ := next steps a ts hsteps ha hts
  have shorter := Nat.mul_le_mul_left pace ends.length_le
  refine ⟨steps, b, us, ?_, hb, hus, hnext⟩
  rw [List.length_cons, Nat.mul_succ] at hsteps
  omega

end Resumes
end Tabulate
