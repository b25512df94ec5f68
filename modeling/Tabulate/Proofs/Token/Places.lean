import Mathlib.Data.List.Infix
import Tabulate.Proofs.Outcomes
import Tabulate.Proofs.Text.Utf8
import Tabulate.Proofs.Token.Concatenation
import Tabulate.Proofs.Token.Rest

/-! Tokens stand where they are read: between two characters of their source. A quoted text stands behind
its quote, in as many bytes as it has or more. -/
namespace Tabulate

section Bytes
variable {text : List Char} {offset : Nat}

/-- An offset between two characters of a text, or at one of its ends. -/
def IsPlace (text : List Char) (offset : Nat) : Prop :=
  ∃ before after, text = before ++ after ∧ byteCount before = offset

private theorem isPlace_iff : IsPlace text offset ↔ ∃ before ∈ text.inits, byteCount before = offset := by
  constructor
  · rintro ⟨before, after, rfl, rfl⟩
    exact ⟨before, (List.mem_inits _ _).mpr ⟨after, rfl⟩, rfl⟩
  · rintro ⟨before, mem, rfl⟩
    obtain ⟨after, rfl⟩ := (List.mem_inits _ _).mp mem
    exact ⟨before, after, rfl, rfl⟩

instance : Decidable (IsPlace text offset) := decidable_of_iff _ isPlace_iff.symm

theorem isPlace_zero (text : List Char) : IsPlace text 0 := ⟨[], text, rfl, rfl⟩

private theorem isPlace_end (text : List Char) : IsPlace text (byteCount text) :=
  ⟨text, [], (List.append_nil text).symm, rfl⟩

theorem IsPlace.le (h : IsPlace text offset) : offset ≤ byteCount text := by
  obtain ⟨before, after, rfl, rfl⟩ := h
  rw [byteCount_append]
  exact Nat.le_add_right _ _

/-- A place within a part of a text is one of the text. -/
theorem IsPlace.inside (h : IsPlace text offset) (before after : List Char) :
    IsPlace (before ++ (text ++ after)) (byteCount before + offset) := by
  obtain ⟨start, finish, rfl, rfl⟩ := h
  exact ⟨before ++ start, finish ++ after, by simp only [List.append_assoc], byteCount_append _ _⟩

end Bytes

def Lexeme.StandsIn (hyphens : Bool) (text : List Char) (lexeme : Lexeme) : Prop :=
  ∃ before c rest after, text = before ++ c :: rest ∧ byteCount before = lexeme.position ∧
    Token.first hyphens c rest = .ok (lexeme.token, after)

structure Tokens.StandIn (hyphens : Bool) (text : List Char) (ts : Tokens) : Prop where
  rest : ∀ lexeme ∈ ts.rest, lexeme.StandsIn hyphens text
  finish : ts.finish = byteCount text

namespace Token

section Lexing
variable {hyphens : Bool} {text : List Char}

/-- Tokens stand where they are read from a text, or their error lies at a place of it. -/
private def LiesIn (hyphens : Bool) (text : List Char) : Except LexError (List Lexeme) → Prop
  | .ok lexemes => ∀ lexeme ∈ lexemes, lexeme.StandsIn hyphens text
  | .error e => IsPlace text e.position

private theorem liesIn_lexWithin (fuel : Nat) {before after : List Char} (h : text = before ++ after) :
    LiesIn hyphens text (lexWithin hyphens (byteCount text) fuel after) := by
  induction fuel generalizing before after with
  | zero => exact List.forall_mem_nil _
  | succ fuel ih =>
    cases after with
    | nil => exact List.forall_mem_nil _
    | cons c rest =>
      have hposition : byteCount text - byteCount (c :: rest) = byteCount before := by
        rw [h, byteCount_append, Nat.add_sub_cancel]
      rw [lexWithin, hposition]
      split
      · have hnext : text = (before ++ [c]) ++ rest := by
          rw [h, List.append_assoc]
          rfl
        exact ih hnext
      · cases htaken : first hyphens c rest with
        | error fault => exact ⟨before, c :: rest, h, rfl⟩
        | ok taken =>
          obtain ⟨token, left⟩ := taken
          obtain ⟨read, hread⟩ := first_suffix htaken
          have hnext : text = (before ++ c :: read) ++ left := by
            rw [h, ← hread, List.append_assoc]
            rfl
          have hmore := ih hnext
          dsimp only
          cases hlex : lexWithin hyphens (byteCount text) fuel left with
          | error e =>
            rw [hlex] at hmore
            exact hmore
          | ok more =>
            rw [hlex] at hmore
            exact List.forall_mem_cons.mpr ⟨⟨before, c, rest, left, h, rfl, htaken⟩, hmore⟩

end Lexing

section Sources
variable {hyphens : Bool} {source : String}

private theorem liesIn_lex (source : String) (hyphens : Bool) :
    LiesIn hyphens source.toList (lex source hyphens) := liesIn_lexWithin _ (List.nil_append _).symm

theorem standIn_of_stream {ts : Tokens} (h : stream source hyphens = .ok ts) :
    ts.StandIn hyphens source.toList := by
  obtain ⟨lexemes, hlex, hts⟩ := exists_of_bind_eq_ok h
  have hlies := liesIn_lex source hyphens
  rw [hlex] at hlies
  cases hts
  exact ⟨hlies, rfl⟩

theorem isPlace_of_stream {e : LexError} (h : stream source hyphens = .error e) :
    IsPlace source.toList e.position := by
  have hlies := liesIn_lex source hyphens
  unfold stream at h
  cases hlex : lex source hyphens with
  | ok lexemes =>
    rw [hlex] at h
    contradiction
  | error e =>
    rw [hlex] at h hlies
    cases h
    exact hlies

end Sources

/-- Only a quote starts a quoted text, which goes on to the next one. -/
theorem first_quoted {hyphens : Bool} {c : Char} {rest after : List Char} {token : Token} {text : String}
    (h : first hyphens c rest = .ok (token, after)) (htoken : token = .quoted text ∨ token = .singleQuoted text) :
    (c = '"' ∨ c = '\'') ∧ takeQuoted? c rest = some (text.toList, after) := by
  rw [first_eq_ok_iff] at h
  cases h with
  | number | name => rcases htoken with htoken | htoken <;> contradiction
  | quoted _ _ _ taken =>
    unfold quotedToken at htoken
    split_ifs at htoken with double single
    · rcases htoken with htoken | htoken <;> cases htoken
      exact ⟨.inl double, by rw [String.toList_ofList, taken]⟩
    · rcases htoken with htoken | htoken <;> cases htoken
      exact ⟨.inr single, by rw [String.toList_ofList, taken]⟩
    · rcases htoken with htoken | htoken <;> cases htoken
  | dollar =>
    unfold takeDollar at htoken
    split at htoken <;> rcases htoken with htoken | htoken <;> contradiction
  | symbol => rcases htoken with htoken | htoken <;> contradiction

/-- A text in quotes is what is written in them, but for the characters behind backslashes. -/
theorem exists_of_takeQuoted? {quote : Char} {text inner rest : List Char}
    (h : takeQuoted? quote text = some (inner, rest)) :
    ∃ raw, text = raw ++ quote :: rest ∧ byteCount inner ≤ byteCount raw ∧ ('\\' ∉ raw → inner = raw) := by
  fun_induction takeQuoted? quote text generalizing inner with
  | case1 | case2 => contradiction
  | case3 c text ih =>
    obtain ⟨⟨inner, rest⟩, hrest, heq⟩ := Option.map_eq_some_iff.mp h
    cases heq
    obtain ⟨raw, rfl, hle, -⟩ := ih hrest
    refine ⟨'\\' :: c :: raw, rfl, ?_, fun plain => absurd List.mem_cons_self plain⟩
    have hsize : (unescape c).utf8Size ≤ c.utf8Size := by
      unfold unescape
      split
      case h_4 => exact Nat.le_refl _
      all_goals decide
    rw [byteCount_cons, byteCount_cons, byteCount_cons]
    omega
  | case4 text =>
    cases h
    exact ⟨[], rfl, Nat.le_refl _, fun _ => rfl⟩
  | case5 c text _ _ _ ih =>
    obtain ⟨⟨inner, rest⟩, hrest, heq⟩ := Option.map_eq_some_iff.mp h
    cases heq
    obtain ⟨raw, rfl, hle, hplain⟩ := ih hrest
    refine ⟨c :: raw, rfl, ?_, fun plain => ?_⟩
    · rw [byteCount_cons, byteCount_cons]
      omega
    · rw [hplain fun mem => plain (List.mem_cons_of_mem c mem)]

end Token

namespace Tokens
variable {hyphens : Bool} {text : List Char} {ts us : Tokens}

theorem StandIn.of_isRestOf (h : ts.StandIn hyphens text) (hus : us.IsRestOf ts) : us.StandIn hyphens text :=
  ⟨fun lexeme mem => h.rest lexeme (hus.suffix.subset mem), hus.finish.trans h.finish⟩

theorem StandIn.isPlace (h : ts.StandIn hyphens text) : IsPlace text ts.position := by
  obtain ⟨_ | ⟨lexeme, rest⟩, finish⟩ := ts
  · have hfinish : finish = byteCount text := h.finish
    subst hfinish
    exact isPlace_end text
  · obtain ⟨before, c, more, _, htext, hposition, -⟩ := h.rest lexeme List.mem_cons_self
    exact ⟨before, c :: more, htext, hposition⟩

end Tokens

end Tabulate
