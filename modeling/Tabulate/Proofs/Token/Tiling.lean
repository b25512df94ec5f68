import Mathlib.Data.List.TakeWhile
import Tabulate.Proofs.Token.Places
import Tabulate.Proofs.Token.Spelling

/-! The tokens of a source lie side by side: but for the blanks around them, each stands where the one before has
ended, and its text is a source of that token alone. -/
namespace Tabulate.Token

/-- A source is blanks and texts of tokens, from an offset on: each text is at the place of its token, and alone it is
split into that token. -/
inductive Tiles (hyphens : Bool) : Nat → List Lexeme → List Char → Prop
  | nil {offset} : Tiles hyphens offset [] []
  | blank {offset lexemes c text} (isBlank : Unicode.isBlank c = true)
      (next : Tiles hyphens (offset + c.utf8Size) lexemes text) : Tiles hyphens offset lexemes (c :: text)
  | token {offset token lexemes span text} (nonempty : span ≠ [])
      (alone : lex (String.ofList span) hyphens = .ok [⟨token, 0⟩])
      (next : Tiles hyphens (offset + byteCount span) lexemes text) :
      Tiles hyphens offset (⟨token, offset⟩ :: lexemes) (span ++ text)

/-- A part of the lexer that takes all of what it has taken from some text. -/
private def TakesAgain (take : List Char → List Char × List Char) : Prop :=
  ∀ text, (take text).1 ++ (take text).2 = text ∧ take (take text).1 = ((take text).1, [])

private theorem TakesAgain.exists_eq {take : List Char → List Char × List Char} (h : TakesAgain take) {c : Char}
    {rest : List Char} (hsuffix : (take (c :: rest)).2 <:+ rest) :
    ∃ used, rest = used ++ (take (c :: rest)).2 ∧ take (c :: rest) = (c :: used, (take (c :: rest)).2) ∧
      take (c :: used) = (c :: used, []) := by
  obtain ⟨happend, hagain⟩ := h (c :: rest)
  obtain ⟨used, hused⟩ := hsuffix
  have htaken : (take (c :: rest)).1 = c :: used := by
    refine List.append_cancel_right (happend.trans ?_)
    rw [List.cons_append, hused]
  rw [htaken] at hagain
  exact ⟨used, hused.symm, Prod.ext htaken rfl, hagain⟩

section Numbers
variable {text rest : List Char}

private def IsFraction (text : List Char) : Prop :=
  text = [] ∨ ∃ digits, text = '.' :: digits ∧ startsDigit digits = true ∧ ∀ d ∈ digits, d.isDigit = true

private def IsExponent (text : List Char) : Prop :=
  text = [] ∨ ∃ mark sign digits, text = mark :: (sign ++ digits) ∧ (mark = 'e' ∨ mark = 'E') ∧
    (sign = [] ∨ sign = ['+'] ∨ sign = ['-']) ∧ startsDigit digits = true ∧ ∀ d ∈ digits, d.isDigit = true

private theorem takeDigits_cases (text : List Char) :
    (takeDigits text).1 ++ (takeDigits text).2 = text ∧ ∀ d ∈ (takeDigits text).1, d.isDigit = true := by
  rw [takeDigits, List.span_eq_takeWhile_dropWhile]
  exact ⟨List.takeWhile_append_dropWhile, fun d hd => List.mem_takeWhile_imp hd⟩

private theorem startsDigit_takeDigits (h : startsDigit text = true) : startsDigit (takeDigits text).1 = true := by
  cases text with
  | nil => contradiction
  | cons c text =>
    have hc : c.isDigit = true := h
    rw [takeDigits, List.span_eq_takeWhile_dropWhile, List.takeWhile_cons_of_pos hc]
    exact hc

private theorem startsDigit_append (h : startsDigit text = true) (rest : List Char) :
    startsDigit (text ++ rest) = true := by
  cases text with
  | nil => contradiction
  | cons c text => exact h

private theorem takeFraction_cases (text : List Char) :
    (takeFraction text).1 ++ (takeFraction text).2 = text ∧ IsFraction (takeFraction text).1 := by
  unfold takeFraction
  split
  next rest =>
    obtain ⟨happend, hdigits⟩ := takeDigits_cases rest
    split
    next hstarts =>
      exact ⟨congrArg ('.' :: ·) happend, .inr ⟨_, rfl, startsDigit_takeDigits hstarts, hdigits⟩⟩
    next => exact ⟨rfl, .inl rfl⟩
  next => exact ⟨rfl, .inl rfl⟩

private def signOf (text : List Char) : List Char := (text.take 1).filter fun c => c = '+' ∨ c = '-'

private theorem signOf_cases (text : List Char) : signOf text ++ text.drop (signOf text).length = text ∧
    (signOf text = [] ∨ signOf text = ['+'] ∨ signOf text = ['-']) := by
  cases text with
  | nil => exact ⟨rfl, .inl rfl⟩
  | cons c text =>
    by_cases h : c = '+' ∨ c = '-'
    · have hsign : signOf (c :: text) = [c] := List.filter_cons_of_pos (decide_eq_true h)
      rw [hsign]
      refine ⟨rfl, .inr ?_⟩
      rcases h with rfl | rfl
      · exact .inl rfl
      · exact .inr rfl
    · have hsign : signOf (c :: text) = [] := List.filter_cons_of_neg (by simpa using h)
      rw [hsign]
      exact ⟨rfl, .inl rfl⟩

private theorem takeExponent_cons (mark : Char) (text : List Char) : takeExponent (mark :: text) =
    if mark = 'e' ∨ mark = 'E' then
      if startsDigit (text.drop (signOf text).length) then
        (mark :: signOf text ++ (takeDigits (text.drop (signOf text).length)).1,
          (takeDigits (text.drop (signOf text).length)).2)
      else ([], mark :: text)
    else ([], mark :: text) := rfl

private theorem takeExponent_cases (text : List Char) :
    (takeExponent text).1 ++ (takeExponent text).2 = text ∧ IsExponent (takeExponent text).1 := by
  cases text with
  | nil => exact ⟨rfl, .inl rfl⟩
  | cons mark text =>
    obtain ⟨hsign, hkind⟩ := signOf_cases text
    obtain ⟨hdigits, hall⟩ := takeDigits_cases (text.drop (signOf text).length)
    rw [takeExponent_cons]
    split
    next hmark =>
      split
      next hstarts =>
        refine ⟨?_, .inr ⟨mark, _, _, rfl, hmark, hkind, startsDigit_takeDigits hstarts, hall⟩⟩
        rw [List.append_assoc, hdigits, List.cons_append, hsign]
      next => exact ⟨rfl, .inl rfl⟩
    next => exact ⟨rfl, .inl rfl⟩

private theorem takeFraction_append (h : IsFraction text) (ends : ∀ c ∈ rest.head?, c.isDigit = false ∧ c ≠ '.') :
    takeFraction (text ++ rest) = (text, rest) := by
  rcases h with rfl | ⟨digits, rfl, hstarts, hdigits⟩
  · rw [List.nil_append]
    unfold takeFraction
    split
    next => exact absurd rfl (ends '.' rfl).2
    next => rfl
  · have htake := takeDigits_append hdigits fun c hc => (ends c hc).1
    rw [List.cons_append, takeFraction, if_pos (startsDigit_append hstarts rest), htake]

private theorem takeExponent_of_isExponent (h : IsExponent text) : takeExponent text = (text, []) := by
  rcases h with rfl | ⟨mark, sign, digits, rfl, hmark, hsign, hstarts, hdigits⟩
  · rfl
  have hkind : signOf (sign ++ digits) = sign := by
    rcases hsign with rfl | rfl | rfl
    · have hsome : digits ≠ [] := fun hnil => by simp [hnil, startsDigit] at hstarts
      obtain ⟨d, more, rfl⟩ := List.exists_cons_of_ne_nil hsome
      have hd : d.isDigit = true := hstarts
      refine List.filter_cons_of_neg ?_
      rw [decide_eq_true_eq]
      rintro (rfl | rfl) <;> contradiction
    · rfl
    · rfl
  have htake : takeDigits (digits ++ []) = (digits, []) := takeDigits_append hdigits nofun
  rw [List.append_nil] at htake
  rw [takeExponent_cons, if_pos hmark, hkind, List.drop_left, if_pos hstarts, htake, List.cons_append]

private theorem takeNumber_parts {whole fraction exponent : List Char} (hdigits : ∀ d ∈ whole, d.isDigit = true)
    (isFraction : IsFraction fraction) (isExponent : IsExponent exponent) :
    takeNumber (whole ++ fraction ++ exponent) = (whole ++ fraction ++ exponent, []) := by
  have hmark : ∀ c ∈ exponent.head?, c.isDigit = false ∧ c ≠ '.' := by
    rcases isExponent with rfl | ⟨mark, _, _, rfl, hmark, -⟩
    · exact nofun
    · rintro c ⟨⟩
      rcases hmark with rfl | rfl <;> decide
  have hpoint : ∀ c ∈ (fraction ++ exponent).head?, c.isDigit = false := by
    rcases isFraction with rfl | ⟨_, rfl, -⟩
    · exact fun c hc => (hmark c hc).1
    · rintro c ⟨⟩
      rfl
  have hwhole := takeDigits_append hdigits hpoint
  have hfraction := takeFraction_append isFraction hmark
  have hexponent := takeExponent_of_isExponent isExponent
  rw [List.append_assoc]
  simp only [takeNumber, hwhole, hfraction, hexponent, List.append_assoc]

private theorem takeNumber_takesAgain : TakesAgain takeNumber := by
  intro text
  obtain ⟨hwhole, hdigits⟩ := takeDigits_cases text
  obtain ⟨hfraction, isFraction⟩ := takeFraction_cases (takeDigits text).2
  obtain ⟨hexponent, isExponent⟩ := takeExponent_cases (takeFraction (takeDigits text).2).2
  refine ⟨?_, takeNumber_parts hdigits isFraction isExponent⟩
  simp only [takeNumber]
  rw [List.append_assoc, List.append_assoc, hexponent, hfraction, hwhole]

end Numbers

section Parts
variable {hyphens : Bool} {text : List Char}

private theorem head?_takeName (h : (text.head?.map Unicode.isAlphanumeric).getD false = true) :
    (takeName hyphens text).1.head? = text.head? := by
  cases text with
  | nil => contradiction
  | cons c text =>
    have hc : Unicode.isAlphanumeric c = true := h
    have hword : isWordChar c = true := by rw [isWordChar, hc, Bool.true_or]
    rw [takeName, hword, Bool.true_or, if_pos rfl]
    rfl

private theorem takeName_takesAgain : TakesAgain (takeName hyphens) := by
  intro text
  induction text with
  | nil => exact ⟨rfl, rfl⟩
  | cons c text ih =>
    obtain ⟨happend, hagain⟩ := ih
    rw [takeName]
    split
    next h =>
      -- A hyphen joins to the same character, which is taken as well.
      have hjoins : (isWordChar c || (hyphens && decide (c = '-') &&
          ((takeName hyphens text).1.head?.map Unicode.isAlphanumeric).getD false)) = true := by
        rw [Bool.or_eq_true] at h ⊢
        refine h.imp_right fun joins => ?_
        rwa [head?_takeName (Bool.and_eq_true_iff.mp joins).2]
      refine ⟨congrArg (c :: ·) happend, ?_⟩
      dsimp only
      rw [takeName, if_pos hjoins, hagain]
    next => exact ⟨rfl, rfl⟩

private theorem exists_takeQuoted?_eq {quote : Char} {inner rest : List Char}
    (h : takeQuoted? quote text = some (inner, rest)) :
    ∃ used, text = used ++ rest ∧ takeQuoted? quote used = some (inner, []) := by
  fun_induction takeQuoted? quote text generalizing inner with
  | case1 | case2 => contradiction
  | case3 c text ih =>
    obtain ⟨⟨inner, rest⟩, hrest, heq⟩ := Option.map_eq_some_iff.mp h
    cases heq
    obtain ⟨used, rfl, hused⟩ := ih hrest
    exact ⟨'\\' :: c :: used, rfl, by rw [takeQuoted?, hused, Option.map_some]⟩
  | case4 text notLast notPair =>
    have hquote := ne_backslash notLast notPair
    cases h
    exact ⟨[quote], rfl, by rw [takeQuoted?_cons hquote, if_pos rfl]⟩
  | case5 c text notLast notPair notQuote ih =>
    have hc := ne_backslash notLast notPair
    obtain ⟨⟨inner, rest⟩, hrest, heq⟩ := Option.map_eq_some_iff.mp h
    cases heq
    obtain ⟨used, rfl, hused⟩ := ih hrest
    exact ⟨c :: used, rfl, by rw [takeQuoted?_cons hc, if_neg notQuote, hused, Option.map_some]⟩

private theorem exists_takeDollar_eq (text : List Char) :
    ∃ used, text = used ++ (takeDollar text).2 ∧ takeDollar used = ((takeDollar text).1, []) := by
  by_cases h : text.head? = some '$'
  · obtain ⟨rest, rfl⟩ := List.head?_eq_some_iff.mp h
    exact ⟨['$'], rfl, rfl⟩
  · have hword : ∀ c ∈ text.takeWhile isWordChar, isWordChar c = true := fun c hc => List.mem_takeWhile_imp hc
    have hhead : (text.takeWhile isWordChar).head? ≠ some '$' := fun heq =>
      ne_of_isWordChar (hword '$' (List.mem_of_mem_head? heq)) (by decide) rfl
    rw [takeDollar_of_ne h]
    refine ⟨text.takeWhile isWordChar, List.takeWhile_append_dropWhile.symm, ?_⟩
    rw [takeDollar_of_ne hhead, List.takeWhile_eq_self_iff.mpr hword, List.dropWhile_eq_nil_iff.mpr hword]

/-- The text of a token is one of that token alone. -/
theorem exists_first_eq {c : Char} {rest after : List Char} {token : Token}
    (h : first hyphens c rest = .ok (token, after)) :
    ∃ used, rest = used ++ after ∧ first hyphens c used = .ok (token, []) := by
  have hsuffix := first_suffix h
  rw [first_eq_ok_iff] at h
  cases h with
  | number digit =>
    obtain ⟨used, hrest, htaken, hused⟩ := takeNumber_takesAgain.exists_eq hsuffix
    have hfirst : TakesFirst hyphens c used _ _ := .number digit
    rw [hused] at hfirst
    rw [htaken]
    exact ⟨used, hrest, first_eq_ok_iff.mpr hfirst⟩
  | name notDigit letter =>
    obtain ⟨used, hrest, htaken, hused⟩ := takeName_takesAgain.exists_eq hsuffix
    have hfirst : TakesFirst hyphens c used _ _ := .name notDigit letter
    rw [hused] at hfirst
    rw [htaken]
    exact ⟨used, hrest, first_eq_ok_iff.mpr hfirst⟩
  | quoted notDigit notLetter quote taken =>
    obtain ⟨used, rfl, hused⟩ := exists_takeQuoted?_eq taken
    exact ⟨used, rfl, first_eq_ok_iff.mpr (.quoted notDigit notLetter quote hused)⟩
  | dollar notDigit notLetter notQuote dollar =>
    obtain ⟨used, hrest, hused⟩ := exists_takeDollar_eq rest
    have hfirst : TakesFirst hyphens c used _ _ := .dollar notDigit notLetter notQuote dollar
    rw [hused] at hfirst
    exact ⟨used, hrest, first_eq_ok_iff.mpr hfirst⟩
  | @symbol _ _ _ _ found _ taken =>
    obtain ⟨_, hfound, heq⟩ := Option.map_eq_some_iff.mp taken
    cases heq
    have hstarts : found.toList.isPrefixOf (c :: rest) :=
      List.find?_some (p := fun s : String => s.toList.isPrefixOf (c :: rest)) hfound
    obtain ⟨more, hmore⟩ := List.isPrefixOf_iff_prefix.mp hstarts
    have hafter : (c :: rest).drop found.length = more := by
      rw [← hmore, ← String.length_toList, List.drop_left]
    have ends : EndsSymbol found [] := by
      intro longer _ hlonger
      rw [List.append_nil] at hlonger
      rw [← String.length_toList, ← String.length_toList]
      exact hlonger.length_le
    obtain ⟨x, used, htext, -, hfirst⟩ := (Spells.symbol (List.mem_of_find?_eq_some hfound) ends).first
    rw [List.append_nil] at htext
    rw [htext, List.cons_append] at hmore
    obtain ⟨rfl, rfl⟩ := List.cons.inj hmore
    exact ⟨used, by rw [hafter], hfirst⟩

end Parts

section Tiling
variable {hyphens : Bool}

/-- The text of a token, taken alone, is split into that token. -/
theorem lex_used {c : Char} {used : List Char} {token : Token} (notBlank : Unicode.isBlank c = false)
    (h : first hyphens c used = .ok (token, [])) : lex (String.ofList (c :: used)) hyphens = .ok [⟨token, 0⟩] := by
  have hend (fuel : Nat) : lexWithin hyphens (byteCount (c :: used)) fuel [] = .ok [] := by cases fuel <;> rfl
  rw [lex, String.toList_ofList, List.length_cons]
  simp only [lexWithin, notBlank, h, hend]
  rw [Nat.sub_self]
  rfl

private theorem tiles_of_lexWithin {fuel : Nat} {before after : List Char} {lexemes : List Lexeme}
    (enough : after.length ≤ fuel)
    (h : lexWithin hyphens (byteCount (before ++ after)) fuel after = .ok lexemes) :
    Tiles hyphens (byteCount before) lexemes after := by
  induction fuel generalizing before after lexemes with
  | zero =>
    obtain rfl := List.eq_nil_of_length_eq_zero (Nat.le_zero.mp enough)
    cases h
    exact .nil
  | succ fuel ih =>
    cases after with
    | nil =>
      cases h
      exact .nil
    | cons c rest =>
      have hrest : rest.length ≤ fuel := Nat.le_of_succ_le_succ enough
      have hposition : byteCount (before ++ c :: rest) - byteCount (c :: rest) = byteCount before := by
        rw [byteCount_append, Nat.add_sub_cancel]
      rw [lexWithin, hposition] at h
      split at h
      next isBlank =>
        have hnext : before ++ c :: rest = (before ++ [c]) ++ rest := by rw [List.append_assoc]; rfl
        rw [hnext] at h
        have hmore := ih hrest h
        rw [byteCount_append, byteCount_cons] at hmore
        exact .blank isBlank hmore
      next notBlank =>
        cases htaken : first hyphens c rest with
        | error fault =>
          rw [htaken] at h
          contradiction
        | ok taken =>
          obtain ⟨token, left⟩ := taken
          rw [htaken] at h
          obtain ⟨others, hothers, rfl⟩ := exists_of_map_eq_ok h
          obtain ⟨used, rfl, hused⟩ := exists_first_eq htaken
          have hnext : before ++ c :: (used ++ left) = (before ++ c :: used) ++ left := by
            rw [List.append_assoc, List.cons_append]
          rw [hnext] at hothers
          have hleft : left.length ≤ fuel := (List.sublist_append_right used left).length_le.trans hrest
          have hmore := ih hleft hothers
          rw [byteCount_append] at hmore
          exact .token (List.cons_ne_nil c used) (lex_used (Bool.eq_false_iff.mpr notBlank) hused) hmore

/-- Each token starts where some text of its own is still to come, and behind the tokens before it. -/
theorem Tiles.positions {offset : Nat} {lexemes : List Lexeme} {text : List Char}
    (h : Tiles hyphens offset lexemes text) :
    lexemes.Pairwise (fun earlier later => earlier.position < later.position) ∧ ∀ lexeme ∈ lexemes,
      ∃ before after, text = before ++ after ∧ after ≠ [] ∧ offset + byteCount before = lexeme.position := by
  induction h with
  | nil => exact ⟨.nil, List.forall_mem_nil _⟩
  | @blank _ _ c _ _ _ ih =>
    refine ⟨ih.1, fun lexeme mem => ?_⟩
    obtain ⟨before, after, rfl, hafter, hposition⟩ := ih.2 lexeme mem
    exact ⟨c :: before, after, rfl, hafter, by rw [byteCount_cons, ← Nat.add_assoc, hposition]⟩
  | @token offset token _ span text nonempty _ _ ih =>
    have hpos := byteCount_pos nonempty
    refine ⟨List.pairwise_cons.mpr ⟨fun lexeme mem => ?_, ih.1⟩, List.forall_mem_cons.mpr ⟨?_, fun lexeme mem => ?_⟩⟩
    · obtain ⟨before, _, -, -, hposition⟩ := ih.2 lexeme mem
      dsimp only
      omega
    · exact ⟨[], span ++ text, rfl, List.append_ne_nil_of_left_ne_nil nonempty _, rfl⟩
    · obtain ⟨before, after, rfl, hafter, hposition⟩ := ih.2 lexeme mem
      exact ⟨span ++ before, after, by rw [List.append_assoc], hafter,
        by rw [byteCount_append, ← Nat.add_assoc, hposition]⟩

/-- Where a source is split into tokens, it is their texts with nothing but blanks around them; each of them alone is
split into its token, and the tokens stand in order at places inside the source. -/
theorem tiles_of_lex {source : String} {lexemes : List Lexeme} (h : lex source hyphens = .ok lexemes) :
    Tiles hyphens 0 lexemes source.toList ∧
      lexemes.Pairwise (fun earlier later => earlier.position < later.position) ∧
      ∀ lexeme ∈ lexemes, IsPlace source.toList lexeme.position ∧ lexeme.position < byteCount source.toList := by
  have htiles : Tiles hyphens 0 lexemes source.toList := @tiles_of_lexWithin _ _ [] _ _ (Nat.le_refl _) h
  obtain ⟨horder, hplaces⟩ := htiles.positions
  refine ⟨htiles, horder, fun lexeme mem => ?_⟩
  obtain ⟨before, after, htext, hafter, hposition⟩ := hplaces lexeme mem
  rw [Nat.zero_add] at hposition
  have hpos := byteCount_pos hafter
  refine ⟨⟨before, after, htext, hposition⟩, ?_⟩
  rw [htext, byteCount_append]
  omega

/-- Two points behind a number, a hyphen in a name and two dollar signs, and letters of two bytes in between. -/
theorem tiles_of_lex_adjacent :
    let lexemes : List Lexeme := [⟨.number 1, 1⟩, ⟨.symbol "..", 2⟩, ⟨.ident "é-x", 4⟩, ⟨.symbol "-", 8⟩,
      ⟨.dollar "$", 9⟩, ⟨.singleQuoted "é'", 11⟩]
    let source := " 1..é-x-$$'é\\''"
    lex source true = .ok lexemes ∧ Tiles true 0 lexemes source.toList ∧
      lexemes.Pairwise (fun earlier later => earlier.position < later.position) ∧
      ∀ lexeme ∈ lexemes, IsPlace source.toList lexeme.position ∧ lexeme.position < byteCount source.toList := by
  intro lexemes source
  have h : lex source true = .ok lexemes := by decide +kernel
  exact ⟨h, tiles_of_lex h⟩

end Tiling

end Tabulate.Token
