import Tabulate.Proofs.Token.Spelling

/-! Tokens that stand next to each other without a blank: a symbol ends before any character that does not
make it a longer one, and the text of an integer is its tokens. -/
namespace Tabulate.Token

def continuations (symbol : String) : List Char :=
  (symbols.filter fun longer => symbol.toList <+: longer.toList).filterMap
    fun longer => (longer.toList.drop symbol.length).head?

private theorem endsSymbol_of_head {symbol : String} {rest : List Char}
    (h : ∀ c ∈ rest.head?, c ∉ continuations symbol) : EndsSymbol symbol rest := by
  intro longer mem starts
  rcases le_total longer.length symbol.length with shorter | notShorter
  · exact shorter
  -- A longer symbol goes on with the head of the rest.
  · have hprefix : symbol.toList <+: longer.toList :=
      List.prefix_of_prefix_length_le (List.prefix_append _ _) starts
        (by rwa [String.length_toList, String.length_toList])
    obtain ⟨more, hmore⟩ := hprefix
    have hrest : more <+: rest := by
      rw [← hmore] at starts
      exact (List.prefix_append_right_inj _).mp starts
    have hdrop : longer.toList.drop symbol.length = more := by
      rw [← hmore, ← String.length_toList, List.drop_left]
    cases more with
    | nil =>
      rw [List.append_nil] at hmore
      rw [← String.length_toList, ← hmore, String.length_toList]
    | cons c more =>
      obtain ⟨others, rfl⟩ := hrest
      have hcontinues : c ∈ continuations symbol := by
        refine List.mem_filterMap.mpr ⟨longer, List.mem_filter.mpr ⟨mem, ?_⟩, ?_⟩
        · exact decide_eq_true ⟨c :: more, hmore⟩
        · rw [hdrop, List.head?_cons]
      exact absurd hcontinues (h c rfl)

section Texts
variable {hyphens : Bool} {tokens : List Token} {rest : List Char}

/-- A symbol stands before what does not go on with it. -/
theorem IsText.mark_of_head (next : IsText hyphens tokens rest) (symbol : String) (mem : symbol ∈ symbols)
    (apart : ∀ c ∈ rest.head?, c ∉ continuations symbol) :
    IsText hyphens (.symbol symbol :: tokens) (symbol.toList ++ rest) :=
  .token (.symbol mem (endsSymbol_of_head apart)) next

/-- A symbol that no other goes on from stands before anything. -/
theorem IsText.mark (next : IsText hyphens tokens rest) (symbol : String) (mem : symbol ∈ symbols)
    (longest : continuations symbol = []) : IsText hyphens (.symbol symbol :: tokens) (symbol.toList ++ rest) :=
  next.mark_of_head symbol mem fun _ _ => longest ▸ List.not_mem_nil

private theorem toList_toString_ofNat (n : Nat) : (toString (Int.ofNat n)).toList = Nat.toDigits 10 n :=
  Nat.toList_repr

private theorem toList_toString_negSucc (n : Nat) :
    (toString (Int.negSucc n)).toList = '-' :: Nat.toDigits 10 (n + 1) := by
  have htext : toString (Int.negSucc n) = "-" ++ Nat.repr (n + 1) := rfl
  rw [htext, String.toList_append, Nat.toList_repr]
  rfl

private theorem toDigits_append_cases (n : Nat) (rest : List Char) :
    ∃ d more, Nat.toDigits 10 n ++ rest = d :: more ∧ d.isDigit = true := by
  obtain ⟨d, digits, h⟩ := List.exists_cons_of_ne_nil (Nat.toDigits_ne_nil (n := n) (b := 10))
  exact ⟨d, digits ++ rest, by rw [h, List.cons_append], isDigit_toDigits d (h ▸ List.mem_cons_self)⟩

/-- The text of an integer starts with a digit or with a minus sign. -/
theorem toString_append_cases (i : Int) (rest : List Char) :
    ∃ c more, (toString i).toList ++ rest = c :: more ∧ (c.isDigit = true ∨ c = '-') := by
  cases i with
  | ofNat n =>
    obtain ⟨d, more, h, hd⟩ := toDigits_append_cases n rest
    exact ⟨d, more, by rw [toList_toString_ofNat, h], .inl hd⟩
  | negSucc n => exact ⟨'-', _, by rw [toList_toString_negSucc, List.cons_append], .inr rfl⟩

/-- An integer stands before what does not go on with a number. -/
theorem IsText.integer (next : IsText hyphens tokens rest) (i : Int) (ends : EndsNumber rest) :
    IsText hyphens (Token.integer i ++ tokens) ((toString i).toList ++ rest) := by
  cases i with
  | ofNat n =>
    rw [toList_toString_ofNat]
    exact .token (.natural n ends) next
  | negSucc n =>
    have hdigits : IsText hyphens (.number (.ofNat (n + 1)) :: tokens) (Nat.toDigits 10 (n + 1) ++ rest) :=
      .token (.natural (n + 1) ends) next
    have hcontinues : continuations "-" = ['>'] := by decide
    obtain ⟨d, more, h, hd⟩ := toDigits_append_cases (n + 1) rest
    rw [toList_toString_negSucc, List.cons_append]
    refine hdigits.mark_of_head "-" (by decide) ?_
    rw [h, hcontinues]
    rintro c ⟨⟩ hmem
    rw [List.mem_singleton.mp hmem] at hd
    contradiction

end Texts

end Tabulate.Token
