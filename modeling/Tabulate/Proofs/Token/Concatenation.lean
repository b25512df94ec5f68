import Mathlib.Data.List.Find
import Mathlib.Data.List.TakeDrop
import Mathlib.Tactic.SplitIfs
import Tabulate.Token.Lexer

/-! A text that follows another one after a blank adds its tokens to those of the first: no token
reaches across a blank. -/
namespace Tabulate.Token

inductive Lexes (hyphens : Bool) : List Char → List Token → Prop
  | nil : Lexes hyphens [] []
  | blank {c rest tokens} (isBlank : Unicode.isBlank c = true) (next : Lexes hyphens rest tokens) :
      Lexes hyphens (c :: rest) tokens
  | token {c rest token after tokens} (notBlank : Unicode.isBlank c = false)
      (taken : first hyphens c rest = .ok (token, after)) (next : Lexes hyphens after tokens) :
      Lexes hyphens (c :: rest) (token :: tokens)

/-- A part of the lexer that takes the same whether a text ends or a blank follows. -/
def StopsAtBlank {α : Type} (take : List Char → α × List Char) : Prop :=
  ∀ text more, take (text ++ ' ' :: more) = ((take text).1, (take text).2 ++ ' ' :: more)

theorem isBlank_space : Unicode.isBlank ' ' = true := by decide

theorem isBlank_bar : Unicode.isBlank '|' = false := by decide

private theorem isAlphanumeric_space : Unicode.isAlphanumeric ' ' = false := by decide

theorem isWordChar_space : isWordChar ' ' = false := by
  rw [isWordChar, isAlphanumeric_space]
  rfl

/-- A name starts with one of the characters that it goes on with. -/
theorem isWordChar_of_letter {c : Char} (h : (Unicode.isLetter c || c = '_') = true) : isWordChar c = true := by
  rw [Bool.or_eq_true] at h
  rcases h with h | h <;> simp [isWordChar, Unicode.isAlphanumeric, h]

section Runs
variable {p : Char → Bool}

private theorem takeWhile_blank (h : p ' ' = false) (text more : List Char) :
    (text ++ ' ' :: more).takeWhile p = text.takeWhile p := by
  induction text with
  | nil => rw [List.nil_append, List.takeWhile_cons_of_neg (by simp [h]), List.takeWhile_nil]
  | cons c rest ih =>
    rw [List.cons_append, List.takeWhile_cons, List.takeWhile_cons, ih]

private theorem dropWhile_blank (h : p ' ' = false) (text more : List Char) :
    (text ++ ' ' :: more).dropWhile p = text.dropWhile p ++ ' ' :: more := by
  induction text with
  | nil =>
    rw [List.nil_append, List.dropWhile_cons_of_neg (by simp [h]), List.dropWhile_nil, List.nil_append]
  | cons c rest ih =>
    rw [List.cons_append, List.dropWhile_cons, List.dropWhile_cons, ih]
    split <;> rfl

end Runs

private theorem takeDigits_stopsAtBlank : StopsAtBlank takeDigits := by
  intro text more
  simp only [takeDigits, List.span_eq_takeWhile_dropWhile]
  rw [takeWhile_blank (by decide), dropWhile_blank (by decide)]

private theorem startsDigit_blank (text more : List Char) :
    startsDigit (text ++ ' ' :: more) = startsDigit text := by
  cases text <;> rfl

private theorem takeFraction_point (rest : List Char) :
    takeFraction ('.' :: rest) =
      if startsDigit rest then ('.' :: (takeDigits rest).1, (takeDigits rest).2)
      else ([], '.' :: rest) := rfl

private theorem takeFraction_other {c : Char} (h : c ≠ '.') (rest : List Char) :
    takeFraction (c :: rest) = ([], c :: rest) := by
  unfold takeFraction
  split
  · simp_all
  · rfl

private theorem takeFraction_stopsAtBlank : StopsAtBlank takeFraction := by
  intro text more
  cases text with
  | nil => exact takeFraction_other (by decide) more
  | cons c rest =>
    rw [List.cons_append]
    by_cases h : c = '.'
    · subst h
      rw [takeFraction_point, takeFraction_point, startsDigit_blank, takeDigits_stopsAtBlank]
      split <;> rfl
    · rw [takeFraction_other h, takeFraction_other h]
      rfl

private theorem sign_blank (rest more : List Char) :
    ((rest ++ ' ' :: more).take 1).filter (fun c => c = '+' ∨ c = '-') =
      (rest.take 1).filter fun c => c = '+' ∨ c = '-' := by
  cases rest <;> rfl

private theorem takeExponent_stopsAtBlank : StopsAtBlank takeExponent := by
  intro text more
  cases text with
  | nil => rfl
  | cons mark rest =>
    have hsign : ((rest.take 1).filter fun c => decide (c = '+' ∨ c = '-')).length ≤ rest.length :=
      Nat.le_trans (List.length_filter_le _ _) (List.length_take_le' _ _)
    rw [List.cons_append]
    simp only [takeExponent, sign_blank, List.drop_append_of_le_length hsign, startsDigit_blank,
      takeDigits_stopsAtBlank _ more]
    split
    · split <;> rfl
    · rfl

private theorem takeNumber_stopsAtBlank : StopsAtBlank takeNumber := by
  intro text more
  simp only [takeNumber, takeDigits_stopsAtBlank _ more, takeFraction_stopsAtBlank _ more,
    takeExponent_stopsAtBlank _ more]

private theorem takeName_stopsAtBlank (hyphens : Bool) : StopsAtBlank (takeName hyphens) := by
  intro text more
  induction text with
  | nil => simp [takeName, isWordChar_space]
  | cons c rest ih =>
    have hhead : ((rest ++ ' ' :: more).head?.map Unicode.isAlphanumeric).getD false =
        (rest.head?.map Unicode.isAlphanumeric).getD false := by
      cases rest with
      | nil => exact isAlphanumeric_space
      | cons => rfl
    rw [List.cons_append]
    simp only [takeName, hhead, ih]
    split <;> rfl

theorem takeQuoted?_cons {quote c : Char} (h : c ≠ '\\') (rest : List Char) :
    takeQuoted? quote (c :: rest) =
      if c = quote then some ([], rest)
      else (takeQuoted? quote rest).map fun (text, rest) => (c :: text, rest) := by
  rw [takeQuoted?.eq_def]
  split <;> simp_all

/-- A character that is not read as a backslash is none. -/
theorem ne_backslash {c : Char} {text : List Char} (notLast : c = '\\' → text = [] → False)
    (notPair : ∀ d more, c = '\\' → text = d :: more → False) : c ≠ '\\' := by
  intro hc
  cases text with
  | nil => exact notLast hc rfl
  | cons d more => exact notPair d more hc rfl

/-- What follows a closing quote is not looked at. -/
theorem takeQuoted?_append (quote : Char) {text inner rest : List Char}
    (h : takeQuoted? quote text = some (inner, rest)) (more : List Char) :
    takeQuoted? quote (text ++ more) = some (inner, rest ++ more) := by
  fun_induction takeQuoted? quote text generalizing inner with
  | case1 | case2 => contradiction
  | case3 c text ih =>
    obtain ⟨⟨inner, rest⟩, hrest, heq⟩ := Option.map_eq_some_iff.mp h
    cases heq
    simp only [List.cons_append, takeQuoted?, ih hrest, Option.map_some]
  | case4 text notLast notPair =>
    have hquote := ne_backslash notLast notPair
    cases h
    rw [List.cons_append, takeQuoted?_cons hquote, if_pos rfl]
  | case5 c text notLast notPair notQuote ih =>
    have hc := ne_backslash notLast notPair
    obtain ⟨⟨inner, rest⟩, hrest, heq⟩ := Option.map_eq_some_iff.mp h
    cases heq
    rw [List.cons_append, takeQuoted?_cons hc, if_neg notQuote, ih hrest]
    rfl

private theorem isPrefixOf_blank {symbol : List Char} (h : ' ' ∉ symbol) (text more : List Char) :
    symbol.isPrefixOf (text ++ ' ' :: more) = symbol.isPrefixOf text := by
  induction symbol generalizing text with
  | nil => rfl
  | cons c symbol ih =>
    simp only [List.mem_cons, not_or] at h
    cases text with
    | nil => simp [List.isPrefixOf, Ne.symm h.1]
    | cons d rest => rw [List.cons_append, List.isPrefixOf, List.isPrefixOf, ih h.2]

private theorem find_symbol_blank (text more : List Char) :
    symbols.find? (·.toList.isPrefixOf (text ++ ' ' :: more)) =
      symbols.find? (·.toList.isPrefixOf text) := by
  have hsymbols : ∀ symbol ∈ symbols, ' ' ∉ symbol.toList := by decide
  exact List.find?_congr fun symbol h => isPrefixOf_blank (hsymbols symbol h) text more

private theorem takeSymbol?_blank {text after : List Char} {token : Token}
    (h : takeSymbol? text = some (token, after)) (more : List Char) :
    takeSymbol? (text ++ ' ' :: more) = some (token, after ++ ' ' :: more) := by
  obtain ⟨symbol, hfound, heq⟩ := Option.map_eq_some_iff.mp h
  cases heq
  have hprefix : symbol.toList.isPrefixOf text :=
    List.find?_some (p := fun s : String => s.toList.isPrefixOf text) hfound
  have hlength : symbol.length ≤ text.length := by
    rw [← String.length_toList]
    exact (List.isPrefixOf_iff_prefix.mp hprefix).length_le
  rw [takeSymbol?, find_symbol_blank, hfound, Option.map_some, List.drop_append_of_le_length hlength]

theorem takeDollar_of_ne {text : List Char} (h : text.head? ≠ some '$') :
    takeDollar text =
      (.dollar (String.ofList (text.takeWhile isWordChar)), text.dropWhile isWordChar) := by
  unfold takeDollar
  split
  · simp at h
  · rfl

private theorem takeDollar_stopsAtBlank : StopsAtBlank takeDollar := by
  intro text more
  by_cases h : text.head? = some '$'
  · obtain ⟨rest, rfl⟩ := List.head?_eq_some_iff.mp h
    rfl
  · have hblank : (text ++ ' ' :: more).head? ≠ some '$' := by
      cases text with
      | nil => simp
      | cons => exact h
    rw [takeDollar_of_ne h, takeDollar_of_ne hblank, takeWhile_blank isWordChar_space,
      dropWhile_blank isWordChar_space]

section First
variable {hyphens : Bool} {c : Char} {rest after : List Char} {token : Token}

inductive TakesFirst (hyphens : Bool) (c : Char) (rest : List Char) : Token → List Char → Prop
  | number (digit : c.isDigit = true) :
      TakesFirst hyphens c rest (.number ((Number.read? (takeNumber (c :: rest)).1).getD .nan))
        (takeNumber (c :: rest)).2
  | name (notDigit : ¬ c.isDigit = true) (letter : (Unicode.isLetter c || c = '_') = true) :
      TakesFirst hyphens c rest (.ident (String.ofList (takeName hyphens (c :: rest)).1))
        (takeName hyphens (c :: rest)).2
  | quoted (notDigit : ¬ c.isDigit = true) (notLetter : ¬ (Unicode.isLetter c || c = '_') = true)
      (quote : c = '"' ∨ c = '\'' ∨ c.toNat = 96) {inner after} (taken : takeQuoted? c rest = some (inner, after)) :
      TakesFirst hyphens c rest (quotedToken c (String.ofList inner)) after
  | dollar (notDigit : ¬ c.isDigit = true) (notLetter : ¬ (Unicode.isLetter c || c = '_') = true)
      (notQuote : ¬ (c = '"' ∨ c = '\'' ∨ c.toNat = 96)) (dollar : c = '$') :
      TakesFirst hyphens c rest (takeDollar rest).1 (takeDollar rest).2
  | symbol (notDigit : ¬ c.isDigit = true) (notLetter : ¬ (Unicode.isLetter c || c = '_') = true)
      (notQuote : ¬ (c = '"' ∨ c = '\'' ∨ c.toNat = 96)) (notDollar : c ≠ '$') {symbol after}
      (taken : takeSymbol? (c :: rest) = some (.symbol symbol, after)) :
      TakesFirst hyphens c rest (.symbol symbol) after

theorem first_eq_ok_iff : first hyphens c rest = .ok (token, after) ↔ TakesFirst hyphens c rest token after := by
  constructor
  · intro h
    unfold first at h
    split_ifs at h with digit letter quote dollar
    · cases h
      exact .number digit
    · cases h
      exact .name digit letter
    · cases hq : takeQuoted? c rest with
      | none => simp [hq] at h
      | some taken =>
        simp only [hq] at h
        cases h
        exact .quoted digit letter quote hq
    · have hdollar : TakesFirst hyphens c rest _ _ := .dollar digit letter quote dollar
      rwa [Except.ok.inj h] at hdollar
    · cases hs : takeSymbol? (c :: rest) with
      | none => simp [hs] at h
      | some taken =>
        simp only [hs] at h
        cases h
        obtain ⟨symbol, -, heq⟩ := Option.map_eq_some_iff.mp hs
        cases heq
        exact .symbol digit letter quote dollar hs
  · intro h
    cases h with
    | number digit => exact if_pos digit
    | name notDigit letter => rw [first, if_neg notDigit, if_pos letter]
    | quoted notDigit notLetter quote taken => rw [first, if_neg notDigit, if_neg notLetter, if_pos quote, taken]
    | dollar notDigit notLetter notQuote dollar =>
      rw [first, if_neg notDigit, if_neg notLetter, if_neg notQuote, if_pos dollar]
    | symbol notDigit notLetter notQuote notDollar taken =>
      rw [first, if_neg notDigit, if_neg notLetter, if_neg notQuote, if_neg notDollar, taken]

/-- The first token of a text is the same before a blank. -/
theorem first_blank (h : first hyphens c rest = .ok (token, after)) (more : List Char) :
    first hyphens c (rest ++ ' ' :: more) = .ok (token, after ++ ' ' :: more) := by
  rw [first_eq_ok_iff] at h ⊢
  cases h with
  | number digit =>
    have hnumber : TakesFirst hyphens c (rest ++ ' ' :: more) _ _ := .number digit
    rwa [← List.cons_append, takeNumber_stopsAtBlank] at hnumber
  | name notDigit letter =>
    have hname : TakesFirst hyphens c (rest ++ ' ' :: more) _ _ := .name notDigit letter
    rwa [← List.cons_append, takeName_stopsAtBlank] at hname
  | quoted notDigit notLetter quote taken => exact .quoted notDigit notLetter quote (takeQuoted?_append c taken _)
  | dollar notDigit notLetter notQuote dollar =>
    have hdollar : TakesFirst hyphens c (rest ++ ' ' :: more) _ _ := .dollar notDigit notLetter notQuote dollar
    rwa [takeDollar_stopsAtBlank] at hdollar
  | symbol notDigit notLetter notQuote notDollar taken =>
    exact .symbol notDigit notLetter notQuote notDollar (takeSymbol?_blank taken more)

end First

section Ends

private theorem takeDigits_suffix (text : List Char) : (takeDigits text).2 <:+ text := by
  rw [takeDigits, List.span_eq_takeWhile_dropWhile]
  exact List.dropWhile_suffix _

private theorem takeFraction_suffix (text : List Char) : (takeFraction text).2 <:+ text := by
  unfold takeFraction
  split
  · split
    · exact (takeDigits_suffix _).trans (List.suffix_cons _ _)
    · exact List.suffix_rfl
  · exact List.suffix_rfl

private theorem takeExponent_suffix (text : List Char) : (takeExponent text).2 <:+ text := by
  cases text with
  | nil => exact List.suffix_rfl
  | cons mark rest =>
    simp only [takeExponent]
    split
    · split
      · exact ((takeDigits_suffix _).trans (List.drop_suffix _ _)).trans (List.suffix_cons _ _)
      · exact List.suffix_rfl
    · exact List.suffix_rfl

private theorem takeNumber_suffix {c : Char} (h : c.isDigit = true) (rest : List Char) :
    (takeNumber (c :: rest)).2 <:+ rest := by
  have hdigits : (takeDigits (c :: rest)).2 <:+ rest := by
    rw [takeDigits, List.span_eq_takeWhile_dropWhile, List.dropWhile_cons_of_pos h]
    exact List.dropWhile_suffix _
  exact ((takeExponent_suffix _).trans (takeFraction_suffix _)).trans hdigits

private theorem takeName_suffix (hyphens : Bool) (text : List Char) :
    (takeName hyphens text).2 <:+ text := by
  induction text with
  | nil => exact List.suffix_rfl
  | cons c rest ih =>
    simp only [takeName]
    split
    · exact ih.trans (List.suffix_cons _ _)
    · exact List.suffix_rfl

private theorem takeName_word_suffix (hyphens : Bool) {c : Char} (h : isWordChar c = true)
    (rest : List Char) : (takeName hyphens (c :: rest)).2 <:+ rest := by
  simp only [takeName, h, Bool.true_or, if_true]
  exact takeName_suffix hyphens rest

private theorem takeQuoted?_suffix {quote : Char} {text inner rest : List Char}
    (h : takeQuoted? quote text = some (inner, rest)) : rest <:+ text := by
  fun_induction takeQuoted? quote text generalizing inner with
  | case1 | case2 => contradiction
  | case3 c text ih =>
    obtain ⟨⟨inner, rest⟩, hrest, heq⟩ := Option.map_eq_some_iff.mp h
    cases heq
    exact (ih hrest).trans ((List.suffix_cons _ _).trans (List.suffix_cons _ _))
  | case4 text =>
    cases h
    exact List.suffix_cons _ _
  | case5 c text _ _ _ ih =>
    obtain ⟨⟨inner, rest⟩, hrest, heq⟩ := Option.map_eq_some_iff.mp h
    cases heq
    exact (ih hrest).trans (List.suffix_cons _ _)

private theorem takeDollar_suffix (text : List Char) : (takeDollar text).2 <:+ text := by
  by_cases h : text.head? = some '$'
  · obtain ⟨rest, rfl⟩ := List.head?_eq_some_iff.mp h
    exact List.suffix_cons _ _
  · rw [takeDollar_of_ne h]
    exact List.dropWhile_suffix _

private theorem takeSymbol?_suffix {c : Char} {rest after : List Char} {token : Token}
    (h : takeSymbol? (c :: rest) = some (token, after)) : after <:+ rest := by
  have hsymbols : ∀ symbol ∈ symbols, 0 < symbol.length := by decide
  obtain ⟨symbol, hfound, heq⟩ := Option.map_eq_some_iff.mp h
  cases heq
  obtain ⟨n, hn⟩ := Nat.exists_eq_succ_of_ne_zero
    (Nat.pos_iff_ne_zero.mp (hsymbols symbol (List.mem_of_find?_eq_some hfound)))
  rw [hn, List.drop_succ_cons]
  exact List.drop_suffix _ _

/-- A token takes at least one character. -/
theorem first_suffix {hyphens : Bool} {c : Char} {rest after : List Char} {token : Token}
    (h : first hyphens c rest = .ok (token, after)) : after <:+ rest := by
  rw [first_eq_ok_iff] at h
  cases h with
  | number digit => exact takeNumber_suffix digit rest
  | name _ letter => exact takeName_word_suffix hyphens (isWordChar_of_letter letter) rest
  | quoted _ _ _ taken => exact takeQuoted?_suffix taken
  | dollar => exact takeDollar_suffix rest
  | symbol _ _ _ _ taken => exact takeSymbol?_suffix taken

end Ends

section Lexing
variable {hyphens : Bool} {size : Nat}

private theorem lexes_of_lexWithin {fuel : Nat} {text : List Char} {lexemes : List Lexeme}
    (enough : text.length ≤ fuel) (h : lexWithin hyphens size fuel text = .ok lexemes) :
    Lexes hyphens text (lexemes.map (·.token)) := by
  induction fuel generalizing text lexemes with
  | zero =>
    obtain rfl := List.eq_nil_of_length_eq_zero (Nat.le_zero.mp enough)
    cases h
    exact .nil
  | succ fuel ih =>
    cases text with
    | nil =>
      cases h
      exact .nil
    | cons c rest =>
      have hrest : rest.length ≤ fuel := Nat.le_of_succ_le_succ enough
      simp only [lexWithin] at h
      split_ifs at h with blank
      · exact .blank blank (ih hrest h)
      · cases htaken : first hyphens c rest with
        | error fault => simp [htaken] at h
        | ok taken =>
          simp only [htaken] at h
          cases hmore : lexWithin hyphens size fuel taken.2 with
          | error e =>
            rw [hmore] at h
            contradiction
          | ok more =>
            rw [hmore] at h
            cases h
            exact .token (by simpa using blank) htaken
              (ih (Nat.le_trans (first_suffix htaken).length_le hrest) hmore)

private theorem lexWithin_of_lexes {text : List Char} {tokens : List Token}
    (h : Lexes hyphens text tokens) {fuel : Nat} (enough : text.length ≤ fuel) :
    ∃ lexemes, lexWithin hyphens size fuel text = .ok lexemes ∧ lexemes.map (·.token) = tokens := by
  induction h generalizing fuel with
  | nil => exact ⟨[], by cases fuel <;> rfl, rfl⟩
  | blank isBlank _ ih =>
    cases fuel with
    | zero => contradiction
    | succ fuel =>
      obtain ⟨lexemes, hlexemes, htokens⟩ := ih (Nat.le_of_succ_le_succ enough)
      exact ⟨lexemes, by rw [lexWithin, if_pos isBlank, hlexemes], htokens⟩
  | @token c rest token after _ notBlank taken _ ih =>
    cases fuel with
    | zero => contradiction
    | succ fuel =>
      have hafter : after.length ≤ fuel :=
        Nat.le_trans (first_suffix taken).length_le (Nat.le_of_succ_le_succ enough)
      obtain ⟨lexemes, hlexemes, rfl⟩ := ih hafter
      refine ⟨⟨token, size - byteCount (c :: rest)⟩ :: lexemes, ?_, rfl⟩
      rw [lexWithin, if_neg (by simp [notBlank])]
      simp only [taken, hlexemes]
      rfl

/-- A text that consists of tokens is split into them. -/
theorem lex_of_lexes {source : String} {tokens : List Token} (h : Lexes hyphens source.toList tokens) :
    ∃ lexemes, lex source hyphens = .ok lexemes ∧ lexemes.map (·.token) = tokens :=
  lexWithin_of_lexes h (Nat.le_refl _)

/-- The tokens before a blank are those of a text that ends there. -/
theorem Lexes.append_blank {text more : List Char} {tokens others : List Token}
    (h : Lexes hyphens text tokens) (hmore : Lexes hyphens more others) :
    Lexes hyphens (text ++ ' ' :: more) (tokens ++ others) := by
  induction h with
  | nil => exact .blank isBlank_space hmore
  | blank isBlank _ ih => exact .blank isBlank ih
  | token notBlank taken _ ih => exact .token notBlank (first_blank taken more) ih

/-- A text that goes on after a blank consists of what the text and the rest consist of. -/
theorem Lexes.of_append_blank {text more : List Char} {tokens all : List Token}
    (h : Lexes hyphens text tokens) (hall : Lexes hyphens (text ++ ' ' :: more) all) :
    ∃ others, Lexes hyphens more others ∧ all = tokens ++ others := by
  induction h generalizing all with
  | nil =>
    cases hall with
    | blank _ next => exact ⟨all, next, rfl⟩
    | token notBlank => exact absurd isBlank_space (by simp [notBlank])
  | blank isBlank _ ih =>
    cases hall with
    | blank _ next => exact ih next
    | token notBlank => exact absurd isBlank (by simp [notBlank])
  | token notBlank taken _ ih =>
    cases hall with
    | blank isBlank => exact absurd isBlank (by simp [notBlank])
    | token _ again next =>
      cases (first_blank taken more).symm.trans again
      obtain ⟨others, hothers, rfl⟩ := ih next
      exact ⟨others, hothers, rfl⟩

private theorem toList_bar (source next : String) :
    (source ++ " | " ++ next).toList = source.toList ++ ' ' :: ('|' :: ' ' :: next.toList) := by
  simp

private theorem first_bar : first hyphens '|' [] = .ok (.symbol "|", []) := by
  cases hyphens <;> decide

/-- The tokens of two texts with a bar between them. -/
theorem lex_bar {source next : String} {lexemes others : List Lexeme}
    (h : lex source hyphens = .ok lexemes) (hnext : lex next hyphens = .ok others) :
    ∃ joined, lex (source ++ " | " ++ next) hyphens = .ok joined ∧
      joined.map (·.token) = lexemes.map (·.token) ++ .symbol "|" :: others.map (·.token) := by
  have hrest : Lexes hyphens ('|' :: ' ' :: next.toList) (.symbol "|" :: others.map (·.token)) :=
    .token isBlank_bar (first_blank first_bar next.toList)
      (.blank isBlank_space (lexes_of_lexWithin (Nat.le_refl _) hnext))
  have hjoined := (lexes_of_lexWithin (Nat.le_refl _) h).append_blank hrest
  rw [lex, toList_bar]
  exact lexWithin_of_lexes hjoined (Nat.le_refl _)

/-- What follows a text and a bar consists of tokens if the whole does. -/
theorem lex_of_bar {source next : String} {lexemes joined : List Lexeme}
    (h : lex source hyphens = .ok lexemes) (hjoined : lex (source ++ " | " ++ next) hyphens = .ok joined) :
    ∃ others, lex next hyphens = .ok others ∧
      joined.map (·.token) = lexemes.map (·.token) ++ .symbol "|" :: others.map (·.token) := by
  rw [lex, toList_bar] at hjoined
  obtain ⟨barred, hbarred, hall⟩ :=
    (lexes_of_lexWithin (Nat.le_refl _) h).of_append_blank (lexes_of_lexWithin (Nat.le_refl _) hjoined)
  have hbar : Lexes hyphens ['|'] [.symbol "|"] := .token isBlank_bar first_bar .nil
  have hbarred : Lexes hyphens (['|'] ++ ' ' :: next.toList) barred := hbarred
  obtain ⟨tokens, hnext, rfl⟩ := hbar.of_append_blank hbarred
  obtain ⟨others, hothers, rfl⟩ := lexWithin_of_lexes hnext (Nat.le_refl _)
  exact ⟨others, hothers, hall⟩

end Lexing

end Tabulate.Token
