import Tabulate.Proofs.Number.Digits
import Tabulate.Proofs.Token.Concatenation
import Tabulate.Proofs.Token.Reading

/-! How tokens are written: a text in which each token is spelled, with blanks between tokens or with
none where the next one does not go on from the last, is split into these tokens. -/
namespace Tabulate

namespace Unicode

private theorem inClass_pair (low high : Nat) (boundaries : List Nat) (code : Nat) :
    inClass (low :: high :: boundaries) code =
      (decide (low ≤ code) && (decide (code < high) || inClass boundaries code)) := by
  unfold inClass
  by_cases hlow : low ≤ code
  · by_cases hhigh : high ≤ code
    · simp only [List.takeWhile, hlow, hhigh, decide_true, List.length_cons, Nat.not_lt.mpr hhigh,
        decide_false, Bool.true_and, Bool.false_or]
      rw [Nat.add_assoc, Nat.add_mod_right]
    · simp [List.takeWhile, hlow, hhigh, Nat.not_le.mp hhigh]
  · simp [List.takeWhile, hlow]

/-- No letter and no digit is white space. -/
theorem isAlphanumeric_of_isBlank {c : Char} (h : isBlank c = true) : isAlphanumeric c = false := by
  obtain ⟨n, hn⟩ : ∃ n, n = c.toNat := ⟨_, rfl⟩
  obtain rfl : c = Char.ofNat n := by rw [hn, Char.ofNat_toNat]
  have hnil : inClass [] n = false := rfl
  rw [isBlank, ← hn] at h
  simp only [whiteSpace, inClass_pair, hnil, Bool.and_eq_true, Bool.or_eq_true, decide_eq_true_eq,
    Bool.false_eq_true, or_false] at h
  have hlist : n ∈ [9, 10, 11, 12, 13, 32, 133, 160, 5760, 8192, 8193, 8194, 8195, 8196, 8197, 8198, 8199,
      8200, 8201, 8202, 8232, 8233, 8239, 8287, 12288] := by
    simp only [List.mem_cons, List.not_mem_nil, or_false]
    clear hn
    omega
  have hall : ∀ n ∈ [9, 10, 11, 12, 13, 32, 133, 160, 5760, 8192, 8193, 8194, 8195, 8196, 8197, 8198, 8199,
      8200, 8201, 8202, 8232, 8233, 8239, 8287, 12288], isAlphanumeric (Char.ofNat n) = false := by
    decide +kernel
  exact hall n hlist

end Unicode

namespace Token

def isName (text : String) : Bool :=
  match text.toList with
  | [] => false
  | first :: rest => (Unicode.isLetter first || first = '_') && rest.all isWordChar

def quotes : List Char := ['"', '\'', Char.ofNat 96]

def escaped (quote c : Char) : List Char := if c = quote ∨ c = '\\' then ['\\', c] else [c]

def inQuotes (quote : Char) (text : String) : List Char :=
  quote :: (text.toList.flatMap (escaped quote) ++ [quote])

def EndsName (hyphens : Bool) : List Char → Prop
  | [] => True
  | c :: rest => isWordChar c = false ∧
      (hyphens = true → c = '-' → ∀ d ∈ rest.head?, Unicode.isAlphanumeric d = false)

def EndsNumber : List Char → Prop
  | [] => True
  | c :: rest => c.isDigit = false ∧ c ≠ 'e' ∧ c ≠ 'E' ∧ (c = '.' → startsDigit rest = false)

def EndsSymbol (symbol : String) (rest : List Char) : Prop :=
  ∀ longer ∈ symbols, longer.toList <+: symbol.toList ++ rest → longer.length ≤ symbol.length

instance (symbol : String) (rest : List Char) : Decidable (EndsSymbol symbol rest) :=
  inferInstanceAs (Decidable (∀ longer ∈ symbols, _ → _))

/-- A text starts with a token, and what follows it. -/
inductive Spells (hyphens : Bool) : Token → List Char → List Char → Prop
  | name {name : String} {rest} (isName : isName name = true) (ends : EndsName hyphens rest) :
      Spells hyphens (.ident name) (name.toList ++ rest) rest
  | natural (n : Nat) {rest} (ends : EndsNumber rest) :
      Spells hyphens (.number (.ofNat n)) (Nat.toDigits 10 n ++ rest) rest
  | quoted {quote : Char} (mem : quote ∈ quotes) (text : String) (rest) :
      Spells hyphens (quotedToken quote text) (inQuotes quote text ++ rest) rest
  | dollar {rest} (ends : EndsName false rest) (single : rest.head? ≠ some '$') :
      Spells hyphens (.dollar "") ('$' :: rest) rest
  | dollars (rest) : Spells hyphens (.dollar "$") ('$' :: '$' :: rest) rest
  | dollarName {name : String} {rest} (isName : isName name = true) (ends : EndsName false rest) :
      Spells hyphens (.dollar name) ('$' :: (name.toList ++ rest)) rest
  | symbol {symbol : String} {rest} (mem : symbol ∈ symbols) (ends : EndsSymbol symbol rest) :
      Spells hyphens (.symbol symbol) (symbol.toList ++ rest) rest

/-- A text that consists of tokens, and of blanks around and between them. -/
inductive IsText (hyphens : Bool) : List Token → List Char → Prop
  | nil : IsText hyphens [] []
  | blank {c tokens text} (isBlank : Unicode.isBlank c = true) (next : IsText hyphens tokens text) :
      IsText hyphens tokens (c :: text)
  | token {token tokens text rest} (spells : Spells hyphens token text rest)
      (next : IsText hyphens tokens rest) : IsText hyphens (token :: tokens) text

section Parts
variable {hyphens : Bool} {rest : List Char}

private theorem isLetter_of_isDigit {c : Char} (h : c.isDigit = true) : Unicode.isLetter c = false := by
  obtain ⟨n, hn⟩ : ∃ n, n = c.toNat := ⟨_, rfl⟩
  obtain rfl : c = Char.ofNat n := by rw [hn, Char.ofNat_toNat]
  simp only [Char.isDigit, Bool.and_eq_true, decide_eq_true_eq, ge_iff_le, UInt32.le_iff_toNat_le] at h
  change 48 ≤ (Char.ofNat n).toNat ∧ (Char.ofNat n).toNat ≤ 57 at h
  rw [← hn] at h
  have hlist : n ∈ List.range' 48 10 := List.mem_range'_1.mpr (by omega)
  have hall : ∀ n ∈ List.range' 48 10, Unicode.isLetter (Char.ofNat n) = false := by decide +kernel
  exact hall n hlist

private theorem takeName_append {name : List Char} (hname : ∀ c ∈ name, isWordChar c = true)
    (ends : EndsName hyphens rest) : takeName hyphens (name ++ rest) = (name, rest) := by
  induction name with
  | nil =>
    cases rest with
    | nil => rfl
    | cons c rest =>
      obtain ⟨hword, hjoins⟩ := ends
      have hstop : (isWordChar c ||
          (hyphens && decide (c = '-') && (rest.head?.map Unicode.isAlphanumeric).getD false)) = false := by
        rw [hword, Bool.false_or]
        by_contra h
        rw [Bool.not_eq_false, Bool.and_eq_true, Bool.and_eq_true, decide_eq_true_eq] at h
        cases rest with
        | nil => exact Bool.false_ne_true h.2
        | cons d rest => exact Bool.false_ne_true ((hjoins h.1.1 h.1.2 d rfl).symm.trans h.2)
      rw [List.nil_append, takeName, hstop]
      rfl
  | cons c name ih =>
    obtain ⟨hc, hname⟩ := List.forall_mem_cons.mp hname
    simp only [List.cons_append, takeName, hc, Bool.true_or, if_true, ih hname]

private theorem takeNumber_toDigits (n : Nat) (ends : EndsNumber rest) :
    takeNumber (Nat.toDigits 10 n ++ rest) = (Nat.toDigits 10 n, rest) := by
  have hdigits : takeDigits (Nat.toDigits 10 n ++ rest) = (Nat.toDigits 10 n, rest) := by
    apply takeDigits_append isDigit_toDigits
    intro c hc
    obtain ⟨more, rfl⟩ := List.head?_eq_some_iff.mp hc
    exact ends.1
  have hfraction : takeFraction rest = ([], rest) := by
    unfold takeFraction
    split
    · rw [if_neg (by simp [ends.2.2.2 rfl])]
    · rfl
  have hexponent : takeExponent rest = ([], rest) := by
    cases rest with
    | nil => rfl
    | cons c rest => exact if_neg (not_or.mpr ⟨ends.2.1, ends.2.2.1⟩)
  simp only [takeNumber, hdigits, hfraction, hexponent, List.append_nil]

private theorem dollar_apart : Unicode.isBlank '$' = false ∧ (Unicode.isLetter '$' || '$' = '_') = false ∧
    isWordChar '$' = false := by
  decide

private theorem eq_of_mem_quotes {quote : Char} (mem : quote ∈ quotes) :
    quote = '"' ∨ quote = '\'' ∨ quote = Char.ofNat 96 := by
  simpa only [quotes, List.mem_cons, List.not_mem_nil, or_false] using mem

private theorem quotes_apart {c : Char} (mem : c ∈ quotes) : Unicode.isBlank c = false ∧ c.isDigit = false ∧
    (Unicode.isLetter c || c = '_') = false ∧ (c = '"' ∨ c = '\'' ∨ c.toNat = 96) := by
  rcases eq_of_mem_quotes mem with rfl | rfl | rfl <;> decide

private theorem takeQuoted?_inQuotes {quote : Char} (mem : quote ∈ quotes) (text : List Char) :
    takeQuoted? quote (text.flatMap (escaped quote) ++ quote :: rest) = some (text, rest) := by
  obtain ⟨hbackslash, hunescape⟩ : quote ≠ '\\' ∧ unescape quote = quote := by
    rcases eq_of_mem_quotes mem with rfl | rfl | rfl <;> decide
  induction text with
  | nil => rw [List.flatMap_nil, List.nil_append, takeQuoted?_cons hbackslash, if_pos rfl]
  | cons c text ih =>
    rw [List.flatMap_cons, List.append_assoc, escaped]
    split
    · next h =>
      have hc : unescape c = c := by
        rcases h with rfl | rfl
        · exact hunescape
        · rfl
      rw [List.cons_append, List.singleton_append, takeQuoted?, ih, hc]
      rfl
    · next h =>
      obtain ⟨hquote, hplain⟩ := not_or.mp h
      rw [List.singleton_append, takeQuoted?_cons hplain, if_neg hquote, ih]
      rfl

private theorem takeDollar_append {name : List Char} (hname : ∀ c ∈ name, isWordChar c = true)
    (ends : EndsName false rest) (single : (name ++ rest).head? ≠ some '$') :
    takeDollar (name ++ rest) = (.dollar (String.ofList name), rest) := by
  rw [takeDollar_of_ne single, List.takeWhile_append_of_pos hname, List.dropWhile_append_of_pos hname]
  cases rest with
  | nil => simp
  | cons c rest =>
    have hc : ¬ isWordChar c = true := by simp [ends.1]
    rw [List.takeWhile_cons_of_neg hc, List.dropWhile_cons_of_neg hc, List.append_nil]

private theorem symbols_order : symbols.Pairwise fun s t => ¬ s.toList <+: t.toList := by
  decide

private theorem takeSymbol?_append {symbol : String} (mem : symbol ∈ symbols)
    (ends : EndsSymbol symbol rest) :
    takeSymbol? (symbol.toList ++ rest) = some (.symbol symbol, rest) := by
  have hfind : symbols.find? (·.toList.isPrefixOf (symbol.toList ++ rest)) = some symbol := by
    have hsome : (symbols.find? (·.toList.isPrefixOf (symbol.toList ++ rest))).isSome :=
      List.find?_isSome.mpr ⟨symbol, mem, List.isPrefixOf_iff_prefix.mpr (List.prefix_append _ _)⟩
    obtain ⟨found, hfound⟩ := Option.isSome_iff_exists.mp hsome
    obtain ⟨hstarts, before, after, hsymbols, hbefore⟩ := List.find?_eq_some_iff_append.mp hfound
    have hmem : found ∈ symbols := List.mem_of_find?_eq_some hfound
    have hstart : found.toList <+: symbol.toList ++ rest := List.isPrefixOf_iff_prefix.mp hstarts
    have hshort : found.toList <+: symbol.toList := by
      apply List.prefix_of_prefix_length_le hstart (List.prefix_append _ _)
      rw [String.length_toList, String.length_toList]
      exact ends found hmem hstart
    -- The symbol is the one found: it does not stand before it, nor after it.
    rw [hsymbols, List.mem_append, List.mem_cons] at mem
    rcases mem with mem | rfl | mem
    · exact absurd (List.isPrefixOf_iff_prefix.mpr (List.prefix_append _ _)) (by simpa using hbefore symbol mem)
    · exact hfound
    · have horder := symbols_order
      rw [hsymbols] at horder
      exact absurd hshort (List.rel_of_pairwise_cons (List.pairwise_append.mp horder).2.1 mem)
  rw [takeSymbol?, hfind, Option.map_some, ← String.length_toList, List.drop_left]

end Parts

section First
variable {hyphens : Bool} {c : Char} {more rest : List Char}

theorem isBlank_of_isWordChar (h : isWordChar c = true) : Unicode.isBlank c = false := by
  rw [isWordChar, Bool.or_eq_true, decide_eq_true_eq] at h
  rcases h with h | rfl
  · by_contra blank
    rw [Bool.not_eq_false] at blank
    exact Bool.false_ne_true ((Unicode.isAlphanumeric_of_isBlank blank).symm.trans h)
  · decide

/-- The marks of a path are no part of a name. -/
theorem isWordChar_mark {mark : Char} (mem : mark ∈ ['$', '.', '[']) : isWordChar mark = false := by
  simp only [List.mem_cons, List.not_mem_nil, or_false] at mem
  rcases mem with rfl | rfl | rfl <;> decide

theorem ne_of_isWordChar {mark : Char} (h : isWordChar c = true) (mem : mark ∈ ['$', '.', '[']) : c ≠ mark := by
  rintro rfl
  exact Bool.false_ne_true ((isWordChar_mark mem).symm.trans h)

theorem isName_cases {name : String} (h : isName name = true) :
    ∃ c more, name.toList = c :: more ∧ (Unicode.isLetter c || c = '_') = true ∧
      ∀ d ∈ c :: more, isWordChar d = true := by
  unfold isName at h
  split at h
  · contradiction
  · next c more hname =>
    rw [Bool.and_eq_true, List.all_eq_true] at h
    exact ⟨c, more, hname, h.1, List.forall_mem_cons.mpr ⟨isWordChar_of_letter h.1, h.2⟩⟩

private theorem first_of_isLetter (h : (Unicode.isLetter c || c = '_') = true) :
    first hyphens c more =
      .ok (.ident (String.ofList (takeName hyphens (c :: more)).1), (takeName hyphens (c :: more)).2) := by
  have hdigit : ¬ c.isDigit = true := by
    intro hdigit
    rw [isLetter_of_isDigit hdigit, Bool.false_or, decide_eq_true_eq] at h
    rw [h] at hdigit
    contradiction
  rw [first, if_neg hdigit, if_pos h]

private theorem first_of_isDigit (h : c.isDigit = true) :
    first hyphens c more =
      .ok (.number ((Number.read? (takeNumber (c :: more)).1).getD .nan), (takeNumber (c :: more)).2) :=
  if_pos h

private theorem first_quote (mem : c ∈ quotes) {inner : List Char}
    (taken : takeQuoted? c more = some (inner, rest)) :
    first hyphens c more = .ok (quotedToken c (String.ofList inner), rest) := by
  obtain ⟨-, hdigit, hletter, hquote⟩ := quotes_apart mem
  simp only [first, hdigit, hletter, hquote, taken, Bool.false_eq_true, if_false, if_true]

private theorem first_dollar : first hyphens '$' more = .ok (takeDollar more) := by
  rw [first, if_neg (by decide), if_neg (Bool.eq_false_iff.mp dollar_apart.2.1), if_neg (by decide),
    if_pos rfl]

private theorem first_symbol {symbol : String} (mem : symbol ∈ symbols)
    (head : symbol.toList.head? = some c) (taken : takeSymbol? (c :: more) = some (.symbol symbol, rest)) :
    Unicode.isBlank c = false ∧ first hyphens c more = .ok (.symbol symbol, rest) := by
  have hall : ∀ symbol ∈ symbols, symbol.toList.head?.all (fun c => decide (Unicode.isBlank c = false ∧
      c.isDigit = false ∧ (Unicode.isLetter c || c = '_') = false ∧
      ¬ (c = '"' ∨ c = '\'' ∨ c.toNat = 96) ∧ c ≠ '$')) = true := by decide +kernel
  have hfirst := hall symbol mem
  rw [head, Option.all_some, decide_eq_true_eq] at hfirst
  obtain ⟨notBlank, hdigit, hletter, hquote, hdollar⟩ := hfirst
  simp only [first, hdigit, hletter, hquote, hdollar, taken, Bool.false_eq_true, if_false, notBlank,
    and_self]

/-- What is spelled first is the first token. -/
theorem Spells.first {token : Token} {text : List Char} (h : Spells hyphens token text rest) :
    ∃ c more, text = c :: more ∧ Unicode.isBlank c = false ∧ first hyphens c more = .ok (token, rest) := by
  cases h with
  | @name name _ isName ends =>
    obtain ⟨c, more, hname, hc, hword⟩ := isName_cases isName
    have htake := takeName_append hword ends
    refine ⟨c, more ++ rest, by rw [hname, List.cons_append],
      isBlank_of_isWordChar (hword c List.mem_cons_self), ?_⟩
    rw [List.cons_append] at htake
    rw [first_of_isLetter hc, htake, ← hname, String.ofList_toList]
  | natural n ends =>
    obtain ⟨d, digits, h⟩ := List.exists_cons_of_ne_nil (Nat.toDigits_ne_nil (n := n) (b := 10))
    have hd : d.isDigit = true := isDigit_toDigits d (h ▸ List.mem_cons_self)
    have htake := takeNumber_toDigits n ends
    have hread := Number.read?_toDigits n
    refine ⟨d, digits ++ rest, by rw [h, List.cons_append], ?_, ?_⟩
    · exact isBlank_of_isWordChar (by simp [isWordChar, Unicode.isAlphanumeric, Unicode.isNumeral, hd])
    · rw [h] at htake hread
      rw [List.cons_append] at htake
      rw [first_of_isDigit hd, htake, hread, Option.getD_some]
  | @quoted quote mem text =>
    refine ⟨quote, text.toList.flatMap (escaped quote) ++ quote :: rest, ?_, (quotes_apart mem).1, ?_⟩
    · rw [inQuotes, List.cons_append, List.append_assoc, List.singleton_append]
    · rw [first_quote mem (takeQuoted?_inQuotes mem _), String.ofList_toList]
  | dollar ends single =>
    refine ⟨'$', rest, rfl, dollar_apart.1, ?_⟩
    have hword : ∀ c ∈ ([] : List Char), isWordChar c = true := fun _ h => (List.not_mem_nil h).elim
    have htake := takeDollar_append hword ends single
    rw [first_dollar, ← List.nil_append rest, htake, String.ofList_nil, List.nil_append]
  | dollars => exact ⟨'$', '$' :: rest, rfl, dollar_apart.1, first_dollar⟩
  | @dollarName name _ isName ends =>
    obtain ⟨c, more, hname, -, hword⟩ := isName_cases isName
    have hdollar : (name.toList ++ rest).head? ≠ some '$' := by
      rw [hname, List.cons_append, List.head?_cons, ne_eq, Option.some.injEq]
      rintro rfl
      exact absurd (hword '$' List.mem_cons_self) (Bool.eq_false_iff.mp dollar_apart.2.2)
    refine ⟨'$', name.toList ++ rest, rfl, dollar_apart.1, ?_⟩
    rw [← hname] at hword
    rw [first_dollar, takeDollar_append hword ends hdollar, String.ofList_toList]
  | @symbol symbol _ mem ends =>
    have hsome : ∀ symbol ∈ symbols, symbol.toList ≠ [] := by decide
    obtain ⟨c, more, hsymbol⟩ := List.exists_cons_of_ne_nil (hsome symbol mem)
    have htake := takeSymbol?_append mem ends
    rw [hsymbol, List.cons_append] at htake
    exact ⟨c, more ++ rest, by rw [hsymbol, List.cons_append],
      first_symbol mem (by rw [hsymbol, List.head?_cons]) htake⟩

end First

private theorem IsText.lexes {hyphens : Bool} {tokens : List Token} {text : List Char}
    (h : IsText hyphens tokens text) : Lexes hyphens text tokens := by
  induction h with
  | nil => exact .nil
  | blank isBlank _ ih => exact .blank isBlank ih
  | token spells _ ih =>
    obtain ⟨c, more, rfl, notBlank, taken⟩ := spells.first
    exact .token notBlank taken ih

/-- A source text is split into the tokens that it consists of. -/
theorem stream_of_isText {hyphens : Bool} {tokens : List Token} {source : String}
    (h : IsText hyphens tokens source.toList) :
    ∃ ts, stream source hyphens = .ok ts ∧ ts.tokens = tokens := by
  obtain ⟨lexemes, hlex, htokens⟩ := lex_of_lexes h.lexes
  refine ⟨⟨lexemes, byteCount source.toList⟩, ?_, htokens⟩
  rw [stream, hlex]
  rfl

/-- A token that some text spells with a blank after it. -/
def HasSpelling (hyphens : Bool) (token : Token) : Prop :=
  ∃ text, ∀ rest, Spells hyphens token (text ++ ' ' :: rest) (' ' :: rest)

section Blanks
variable {hyphens : Bool} (rest : List Char)

theorem endsName_blank : EndsName hyphens (' ' :: rest) :=
  ⟨isWordChar_space, fun _ h => absurd h (by decide)⟩

private theorem endsNumber_blank : EndsNumber (' ' :: rest) :=
  ⟨by decide, by decide, by decide, fun h => absurd h (by decide)⟩

private theorem endsSymbol_blank (symbol : String) : EndsSymbol symbol (' ' :: rest) := by
  intro longer mem hstarts
  have hblank : ∀ s ∈ symbols, ' ' ∉ s.toList := by decide
  by_contra hlength
  rw [not_le, ← String.length_toList, ← String.length_toList] at hlength
  have hget : longer.toList[symbol.toList.length] = ' ' := by
    rw [hstarts.getElem hlength, List.getElem_append_right (Nat.le_refl _)]
    simp
  exact hblank longer mem (List.mem_of_getElem hget)

theorem hasSpelling_ident {name : String} (h : isName name = true) : HasSpelling hyphens (.ident name) :=
  ⟨name.toList, fun rest => .name h (endsName_blank rest)⟩

theorem hasSpelling_natural (n : Nat) : HasSpelling hyphens (.number (.ofNat n)) :=
  ⟨Nat.toDigits 10 n, fun rest => .natural n (endsNumber_blank rest)⟩

private theorem hasSpelling_quotedToken {quote : Char} (mem : quote ∈ quotes) (text : String) :
    HasSpelling hyphens (quotedToken quote text) :=
  ⟨inQuotes quote text, fun rest => .quoted mem text (' ' :: rest)⟩

theorem hasSpelling_quoted (text : String) : HasSpelling hyphens (.quoted text) := by
  have mem : '"' ∈ quotes := by decide
  exact hasSpelling_quotedToken mem text

theorem hasSpelling_singleQuoted (text : String) : HasSpelling hyphens (.singleQuoted text) := by
  have mem : '\'' ∈ quotes := by decide
  exact hasSpelling_quotedToken mem text

theorem hasSpelling_backtick (text : String) : HasSpelling hyphens (.backtick text) := by
  have mem : Char.ofNat 96 ∈ quotes := by decide
  exact hasSpelling_quotedToken mem text

theorem hasSpelling_dollar : HasSpelling hyphens (.dollar "") :=
  ⟨['$'], fun rest => .dollar (endsName_blank rest) (by simp)⟩

theorem hasSpelling_dollars : HasSpelling hyphens (.dollar "$") :=
  ⟨['$', '$'], fun rest => .dollars (' ' :: rest)⟩

theorem hasSpelling_dollarName {name : String} (h : isName name = true) :
    HasSpelling hyphens (.dollar name) :=
  ⟨'$' :: name.toList, fun rest => .dollarName h (endsName_blank rest)⟩

theorem hasSpelling_symbol {symbol : String} (mem : symbol ∈ symbols) :
    HasSpelling hyphens (.symbol symbol) :=
  ⟨symbol.toList, fun rest => .symbol mem (endsSymbol_blank rest symbol)⟩

end Blanks

def integer : Int → List Token
  | .ofNat n => [.number (.ofNat n)]
  | .negSucc n => [.symbol "-", .number (.ofNat (n + 1))]

theorem integer_cases (i : Int) : (∃ n : Nat, i = n ∧ integer i = [.number (.ofNat n)]) ∨
    ∃ n : Nat, 0 < n ∧ i = -n ∧ integer i = [.symbol "-", .number (.ofNat n)] := by
  cases i with
  | ofNat n => exact .inl ⟨n, rfl, rfl⟩
  | negSucc n => exact .inr ⟨n + 1, n.succ_pos, Int.negSucc_eq n, rfl⟩

def Spelled (hyphens : Bool) (tokens : List Token) : Prop := ∀ token ∈ tokens, HasSpelling hyphens token

namespace Spelled
variable {hyphens : Bool} {token : Token} {tokens before after : List Token}

theorem nil : Spelled hyphens [] := fun _ h => (List.not_mem_nil h).elim

theorem cons (next : Spelled hyphens after) (first : HasSpelling hyphens token) :
    Spelled hyphens (token :: after) := List.forall_mem_cons.mpr ⟨first, next⟩

theorem mark (next : Spelled hyphens after) {symbol : String} (mem : symbol ∈ symbols) :
    Spelled hyphens (.symbol symbol :: after) := next.cons (hasSpelling_symbol mem)

theorem append (first : Spelled hyphens before) (next : Spelled hyphens after) :
    Spelled hyphens (before ++ after) := List.forall_mem_append.mpr ⟨first, next⟩

/-- Tokens between two symbols. -/
theorem between (inner : Spelled hyphens tokens) {start finish : String} (memStart : start ∈ symbols)
    (memFinish : finish ∈ symbols) :
    Spelled hyphens (.symbol start :: (tokens ++ [.symbol finish])) :=
  (inner.append (nil.mark memFinish)).mark memStart

theorem integer (i : Int) : Spelled hyphens (Token.integer i) := by
  cases i with
  | ofNat n => exact nil.cons (hasSpelling_natural n)
  | negSucc n => exact (nil.cons (hasSpelling_natural (n + 1))).mark (by decide)

/-- Tokens with blanks between them are a text. -/
theorem exists_isText (h : Spelled hyphens tokens) :
    ∃ source : String, IsText hyphens tokens source.toList := by
  induction tokens with
  | nil => exact ⟨"", .nil⟩
  | cons token tokens ih =>
    obtain ⟨⟨text, spells⟩, hmore⟩ := List.forall_mem_cons.mp h
    obtain ⟨source, next⟩ := ih hmore
    refine ⟨String.ofList (text ++ ' ' :: source.toList), ?_⟩
    rw [String.toList_ofList]
    exact .token (spells source.toList) (.blank isBlank_space next)

end Spelled

end Token
end Tabulate
