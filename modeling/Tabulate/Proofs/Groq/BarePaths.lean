import Tabulate.Pipeline.Parser
import Tabulate.Proofs.Groq.Recovery
import Tabulate.Proofs.Value.Attribute

/-! Bare paths of attributes: the text that a pipeline makes of one is split into the steps that a query finds in the
same tokens. -/
namespace Tabulate
open Groq (EndsSteps WrittenStep)

namespace Token

def isHyphenatedName (text : String) : Bool :=
  match text.toList with
  | [] => false
  | first :: rest => (Unicode.isLetter first || first = '_') && rest.all fun c => isWordChar c || c = '-'

private theorem takeName_hyphenated (hyphens : Bool) (text : List Char) :
    ∀ c ∈ (takeName hyphens text).1, (isWordChar c || c = '-') = true := by
  induction text with
  | nil => exact List.forall_mem_nil _
  | cons x text ih =>
    rw [takeName]
    split
    next h =>
      refine List.forall_mem_cons.mpr ⟨?_, ih⟩
      simp only [Bool.or_eq_true, Bool.and_eq_true, decide_eq_true_eq] at h ⊢
      exact h.imp_right fun joins => joins.1.2
    next => exact List.forall_mem_nil _

/-- Every name in a text is of this kind, whether the text is split with hyphens or without. -/
theorem isHyphenatedName_of_first {hyphens : Bool} {c : Char} {rest after : List Char} {token : Token} {name : String}
    (h : first hyphens c rest = .ok (token, after)) (htoken : token = .ident name) : isHyphenatedName name = true := by
  rw [first_eq_ok_iff] at h
  cases h with
  | name _ letter =>
    have htake : (takeName hyphens (c :: rest)).1 = c :: (takeName hyphens rest).1 := by
      rw [takeName, isWordChar_of_letter letter, Bool.true_or, if_pos rfl]
    cases htoken
    rw [isHyphenatedName, String.toList_ofList, htake]
    exact Bool.and_eq_true_iff.mpr ⟨letter, List.all_eq_true.mpr (takeName_hyphenated hyphens rest)⟩
  | number | symbol => contradiction
  | quoted =>
    unfold quotedToken at htoken
    split_ifs at htoken
  | dollar =>
    unfold takeDollar at htoken
    split at htoken <;> contradiction

/-- Such a name stands in the text of a path as it is. -/
theorem isBare_of_isHyphenatedName {name : String} (h : isHyphenatedName name = true) :
    (PathStep.key name).IsBare ∧ name.toList.head? ≠ some '$' := by
  have hapart : ∀ c, (isWordChar c || c = '-') = true →
      c ≠ '$' ∧ c ≠ '.' ∧ c ≠ '[' ∧ Unicode.isBlank c = false := by
    intro c hc
    rw [Bool.or_eq_true, decide_eq_true_eq] at hc
    rcases hc with hc | rfl
    · exact ⟨ne_of_isWordChar hc (by decide), ne_of_isWordChar hc (by decide), ne_of_isWordChar hc (by decide),
        isBlank_of_isWordChar hc⟩
    · decide
  have hchars : name.toList ≠ [] ∧ ∀ c ∈ name.toList, (isWordChar c || c = '-') = true := by
    unfold isHyphenatedName at h
    split at h
    next => cases h
    next c more hname =>
      obtain ⟨letter, hmore⟩ := Bool.and_eq_true_iff.mp h
      rw [hname]
      refine ⟨List.cons_ne_nil _ _, List.forall_mem_cons.mpr ⟨?_, List.all_eq_true.mp hmore⟩⟩
      rw [isWordChar_of_letter letter, Bool.true_or]
  refine ⟨⟨fun hempty => hchars.1 (hempty ▸ rfl), fun c hc => (hapart c (hchars.2 c hc)).2⟩, fun hhead => ?_⟩
  exact (hapart '$' (hchars.2 '$' (List.mem_of_mem_head? hhead))).1 rfl

end Token

namespace Pipeline
variable {ts : Tokens} {steps : List WrittenStep} {rest : List Token}

private theorem readSteps_end {fuel : Nat} (ends : EndsSteps rest) (h : ts.tokens = rest) :
    readSteps (fuel + 1) ts = .ok ("", ts) := by
  rw [readSteps, Tokens.eat?_of_ne (h ▸ ends.1)]
  dsimp only
  cases rest with
  | nil => rw [Tokens.eat?_of_ne (by rw [h]; exact nofun)]
  | cons token more =>
    by_cases hopen : token = .symbol "["
    · subst hopen
      rw [Tokens.eat?_of_tokens h]
      dsimp only
      split
      next n hnumber =>
        rw [Tokens.peek?_eq_head?, Tokens.tokens_tail h] at hnumber
        obtain ⟨others, rfl⟩ := List.head?_eq_some_iff.mp hnumber
        exact absurd rfl (ends.2 n others)
      next => rfl
    · rw [Tokens.eat?_of_ne (by rw [h]; exact fun heq => hopen (Option.some.inj heq))]

private theorem readSteps_written {fuel : Nat} (enough : (steps.flatMap WrittenStep.tokens).length < fuel)
    (ends : EndsSteps rest) (h : ts.tokens = steps.flatMap WrittenStep.tokens ++ rest) :
    ∃ text, readSteps fuel ts = .ok (text, ⟨ts.rest.drop (steps.flatMap WrittenStep.tokens).length, ts.finish⟩) ∧
      text.toList = (steps.map WrittenStep.step).flatMap PathStep.attributeText := by
  induction steps generalizing ts fuel with
  | nil =>
    obtain ⟨fuel, rfl⟩ := Nat.exists_eq_succ_of_ne_zero (Nat.ne_of_gt (Nat.zero_lt_of_lt enough))
    exact ⟨"", readSteps_end ends h, rfl⟩
  | cons step steps ih =>
    obtain ⟨fuel, rfl⟩ := Nat.exists_eq_succ_of_ne_zero (Nat.ne_of_gt (Nat.zero_lt_of_lt enough))
    rw [List.flatMap_cons, List.append_assoc] at h
    rw [List.flatMap_cons, List.length_append] at enough ⊢
    rw [← List.drop_drop]
    have hfuel : (steps.flatMap WrittenStep.tokens).length < fuel := by
      have hpos : 0 < step.tokens.length := by cases step <;> exact Nat.succ_pos _
      omega
    cases step with
    | key name =>
      have hpoint := Tokens.tokens_tail h
      have hrest : ts.tail.tail.rest = ts.rest.drop 2 := by
        simp only [Tokens.tail, ← List.drop_one, List.drop_drop]
      obtain ⟨text, hread, htext⟩ := ih hfuel (Tokens.tokens_tail hpoint)
      rw [hrest] at hread
      refine ⟨"." ++ name ++ text, ?_, ?_⟩
      · simp only [readSteps, Tokens.eat?_of_tokens h, Tokens.peek?_of_tokens hpoint, hread]
        rfl
      · rw [String.toList_append, String.toList_append, htext]
        rfl
    | number n =>
      have hopen := Tokens.tokens_tail h
      have hnumber := Tokens.tokens_tail hopen
      have hpoint : ts.eat? "." = none := by
        refine Tokens.eat?_of_ne ?_
        rw [h]
        exact fun heq => absurd (Token.symbol.inj (Option.some.inj heq)) (by decide)
      have hclose : expect ts.tail.tail "]" = .ok ts.tail.tail.tail := by
        rw [expect, Tokens.eat?_of_tokens hnumber]
      have hrest : ts.tail.tail.tail.rest = ts.rest.drop 3 := by
        simp only [Tokens.tail, ← List.drop_one, List.drop_drop]
      obtain ⟨text, hread, htext⟩ := ih hfuel (Tokens.tokens_tail hnumber)
      rw [hrest] at hread
      refine ⟨s!"[{n.toNat64}]" ++ text, ?_, ?_⟩
      · simp only [readSteps, hpoint, Tokens.eat?_of_tokens h, Tokens.peek?_of_tokens hopen, hclose]
        dsimp only [bind, Except.bind]
        rw [hread]
        rfl
      · have hindex : (s!"[{n.toNat64}]").toList = '[' :: (Nat.toDigits 10 n.toNat64 ++ [']']) := by
          rw [← Nat.toList_repr]
          simp [toString]
        rw [String.toList_append, hindex, htext]
        rfl

end Pipeline

section Agreement
variable {ts : Tokens} {first : String} {steps : List WrittenStep} {rest : List Token}

/-- The text that a pipeline makes of a bare path is split into the steps that a query finds in the same tokens, and
both go on behind them. -/
theorem ofText_readBarePath (names : ∀ name, name = first ∨ .key name ∈ steps → Token.isHyphenatedName name = true)
    (ends : EndsSteps rest) (h : ts.tokens = .ident first :: (steps.flatMap WrittenStep.tokens ++ rest)) :
    ∃ text left, Pipeline.readBarePath first ts = .ok (text, left) ∧ Groq.readPath ts = .ok (Path.ofText text, left) ∧
      Path.ofText text = .key first :: steps.map WrittenStep.step ∧ left.tokens = rest := by
  have htail := Tokens.tokens_tail h
  have enough : (steps.flatMap WrittenStep.tokens).length < ts.rest.length + 1 := by
    have hlength := Tokens.length_of_tokens h
    rw [List.length_cons, List.length_append] at hlength
    omega
  obtain ⟨text, hread, htext⟩ := Pipeline.readSteps_written enough ends htail
  have hquery := Groq.readSteps_written ts.finish ends htail
  have hpath : Path.ofText (first ++ text) = .key first :: steps.map WrittenStep.step := by
    have hbare : ∀ step ∈ .key first :: steps.map WrittenStep.step, step.IsBare := by
      refine List.forall_mem_cons.mpr ⟨(Token.isBare_of_isHyphenatedName (names first (.inl rfl))).1, ?_⟩
      intro step mem
      obtain ⟨written, hwritten, rfl⟩ := List.mem_map.mp mem
      cases written with
      | key name => exact (Token.isBare_of_isHyphenatedName (names name (.inr hwritten))).1
      | number n => exact Number.toNat64_lt n
    rw [← String.ofList_toList (s := first ++ text), String.toList_append, htext]
    exact Path.ofText_attributes hbare (Token.isBare_of_isHyphenatedName (names first (.inl rfl))).2
  refine ⟨first ++ text, ⟨ts.tail.rest.drop (steps.flatMap WrittenStep.tokens).length, ts.finish⟩, ?_, ?_, hpath, ?_⟩
  · rw [Pipeline.readBarePath, hread]
    rfl
  · rw [hpath]
    simp only [Groq.readPath, Tokens.peek?_of_tokens h, hquery]
    rfl
  · rw [Tokens.tokens, List.map_drop]
    exact (congrArg _ htail).trans List.drop_left

/-- An index with a fraction, one beyond 64 bits, and brackets without a number behind them. -/
theorem ofText_readBarePath_indexes :
    let steps : List WrittenStep := [.number (.ofDecimal false 19 (-1)), .key "b-c", .number (.ofDecimal false 1 30)]
    let tokens := .ident "tags" :: (steps.flatMap WrittenStep.tokens ++ [.symbol "[", .symbol "]"])
    let ts : Tokens := ⟨tokens.map fun token => ⟨token, 0⟩, 0⟩
    ∃ text left, Pipeline.readBarePath "tags" ts = .ok (text, left) ∧ Groq.readPath ts = .ok (Path.ofText text, left) ∧
      Path.ofText text = [.key "tags", .index 1, .key "b-c", .index 18446744073709551615] ∧
      left.tokens = [.symbol "[", .symbol "]"] := by
  intro steps tokens ts
  have names : ∀ name, name = "tags" ∨ .key name ∈ steps → Token.isHyphenatedName name = true := by
    rintro name (rfl | mem)
    · decide
    · obtain rfl : name = "b-c" := by simpa [steps] using mem
      decide
  have ends : EndsSteps [.symbol "[", .symbol "]"] := ⟨by decide, fun _ _ heq => by simp at heq⟩
  have hpath : .key "tags" :: steps.map WrittenStep.step =
      [.key "tags", .index 1, .key "b-c", .index 18446744073709551615] := by decide +kernel
  rw [← hpath]
  exact ofText_readBarePath names ends rfl

end Agreement

end Tabulate
