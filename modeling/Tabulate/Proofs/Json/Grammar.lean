import Mathlib.Algebra.BigOperators.Group.List.Basic
import Mathlib.Data.Char
import Mathlib.Tactic.SplitIfs
import Mathlib.Tactic.IntervalCases
import Tabulate.Proofs.Json.Strings
import Tabulate.Proofs.Number.Digits

/-! JSON texts as a grammar: white space may stand between any two tokens. The reader finds the
document of every text of the grammar that has not more levels than it reads. -/
namespace Tabulate.Json

def IsBlank (c : Char) : Prop := c = ' ' ∨ c = '\n' ∨ c = '\t' ∨ c = '\r'

def IsGap (text : List Char) : Prop := ∀ c ∈ text, IsBlank c

def Stops (text : List Char) : Prop :=
  ∀ c ∈ text.head?, c.isDigit = false ∧ c ≠ '.' ∧ c ≠ 'e' ∧ c ≠ 'E'

def digits (n : Int) : List Char := (toString n).toList

mutual

/-- A text starts with a document of at most so many levels, and what follows it. -/
inductive Document : Nat → List Char → Tree → List Char → Prop
  | null {depth rest} : Document depth ("null".toList ++ rest) .null rest
  | bool {depth rest} (b : Bool) :
      Document depth ((if b then "true" else "false").toList ++ rest) (.bool b) rest
  | integer {depth rest} {n : Int} (size : n.natAbs ≤ twoTo 63) (stops : Stops rest) :
      Document depth (digits n ++ rest) (.integer n) rest
  | string {depth rest} (s : String) : Document depth (quoted s ++ rest) (.string s) rest
  | emptyArray {depth rest gap} (blank : IsGap gap) :
      Document (depth + 1) ('[' :: (gap ++ ']' :: rest)) (.array []) rest
  | array {depth text items rest} (content : Items depth text items rest) :
      Document (depth + 1) ('[' :: text) (.array items) rest
  | emptyObject {depth rest gap} (blank : IsGap gap) :
      Document (depth + 1) ('\x7b' :: (gap ++ '\x7d' :: rest)) (.object []) rest
  | object {depth text fields rest} (content : Members depth text fields rest) :
      Document (depth + 1) ('\x7b' :: text) (.object fields) rest

inductive Items : Nat → List Char → List Tree → List Char → Prop
  | last {depth text item rest before after} (blank : IsGap before) (blank' : IsGap after)
      (first : Document depth text item (after ++ ']' :: rest)) :
      Items depth (before ++ text) [item] rest
  | more {depth text item tail items rest before after} (blank : IsGap before)
      (blank' : IsGap after) (first : Document depth text item (after ++ ',' :: tail))
      (next : Items depth tail items rest) :
      Items depth (before ++ text) (item :: items) rest

inductive Members : Nat → List Char → List (String × Tree) → List Char → Prop
  | last {depth text value rest before colon gap after} (key : String) (blank : IsGap before)
      (blankColon : IsGap colon) (blankGap : IsGap gap) (blank' : IsGap after)
      (first : Document depth text value (after ++ '\x7d' :: rest)) :
      Members depth (before ++ (quoted key ++ (colon ++ ':' :: (gap ++ text)))) [(key, value)] rest
  | more {depth text value tail fields rest before colon gap after} (key : String)
      (blank : IsGap before) (blankColon : IsGap colon) (blankGap : IsGap gap)
      (blank' : IsGap after) (first : Document depth text value (after ++ ',' :: tail))
      (next : Members depth tail fields rest) :
      Members depth (before ++ (quoted key ++ (colon ++ ':' :: (gap ++ text))))
        ((key, value) :: fields) rest

end

/-- A reader finds `a` and stops before `rest`. -/
def Reads {α : Type} (x : Except ReadError (α × Cursor)) (a : α) (rest : List Char) : Prop :=
  ∃ index, x = .ok (a, ⟨rest, index⟩)

section Blanks
variable {gap rest : List Char} {c : Char}

private theorem skipFrom_append (blank : IsGap gap) (index : Nat) :
    Cursor.skipFrom (gap ++ rest) index = Cursor.skipFrom rest (index + gap.length) := by
  induction gap generalizing index with
  | nil => rfl
  | cons b gap ih =>
    obtain ⟨hb, hgap⟩ := List.forall_mem_cons.mp blank
    refine (if_pos hb).trans ((ih hgap (index + 1)).trans ?_)
    rw [List.length_cons, Nat.add_right_comm, Nat.add_assoc]

/-- A gap is passed over up to the next character. -/
theorem skipSpace_gap (blank : IsGap gap) (solid : ¬ IsBlank c) (index : Nat) :
    Cursor.skipSpace ⟨gap ++ c :: rest, index⟩ = ⟨c :: rest, index + gap.length⟩ :=
  (skipFrom_append blank index).trans (if_neg solid)

theorem skipSpace_solid (solid : ¬ IsBlank c) (index : Nat) :
    Cursor.skipSpace ⟨c :: rest, index⟩ = ⟨c :: rest, index⟩ := if_neg solid

theorem isGap_nil : IsGap [] := fun _ h => (List.not_mem_nil h).elim

end Blanks

section Numbers

private theorem le_ofDigitChars (ds : List Char) (start : Nat) :
    start ≤ Nat.ofDigitChars 10 ds start := by
  induction ds generalizing start with
  | nil => exact Nat.le_refl start
  | cons d ds ih =>
    rw [Nat.ofDigitChars_cons]
    exact Nat.le_trans (by omega) (ih _)

private theorem takeBounded_digits {bound : Nat} {ds rest : List Char} {start : Nat}
    (hd : ∀ d ∈ ds, d.isDigit = true) (hrest : ∀ c ∈ rest.head?, c.isDigit = false)
    (hb : Nat.ofDigitChars 10 ds start ≤ bound) :
    takeBounded bound start (ds ++ rest) = (Nat.ofDigitChars 10 ds start, ds.length, false, rest) := by
  induction ds generalizing start with
  | nil =>
    cases rest with
    | nil => rfl
    | cons c rest =>
      have hc : c.isDigit = false := hrest c rfl
      simp [takeBounded, hc]
  | cons d ds ih =>
    obtain ⟨hfirst, hmore⟩ := List.forall_mem_cons.mp hd
    rw [Nat.ofDigitChars_cons] at hb ⊢
    have hnext : ¬ bound < 10 * start + (d.toNat - '0'.toNat) :=
      Nat.not_lt.mpr (Nat.le_trans (le_ofDigitChars ds _) hb)
    rw [List.cons_append, takeBounded, Nat.mul_comm start 10, if_pos hfirst]
    simp only [if_neg hnext, ih hmore hb, List.length_cons]

private theorem head?_toDigits_ne {n : Nat} (h : n ≠ 0) : (Nat.toDigits 10 n).head? ≠ some '0' := by
  induction n using Nat.strong_induction_on with
  | _ n ih =>
    rw [Nat.toDigits_eq_if (by decide)]
    split_ifs with small
    · interval_cases n <;> first | contradiction | decide
    · have hne : Nat.toDigits 10 (n / 10) ≠ [] := Nat.toDigits_ne_nil
      rw [List.head?_append, List.head?_eq_some_head hne, Option.some_or, ← List.head?_eq_some_head]
      exact ih (n / 10) (by omega) (by omega)

private theorem takeBounded_toDigits {n : Nat} (h : n ≤ maxSignificand) {rest : List Char}
    (stops : Stops rest) :
    takeBounded maxSignificand 0 (Nat.toDigits 10 n ++ rest) =
      (n, (Nat.toDigits 10 n).length, false, rest) := by
  have hvalue : Nat.ofDigitChars 10 (Nat.toDigits 10 n) 0 = n := Nat.ofDigitChars_ten_toDigits
  have hstart : takeBounded maxSignificand 0 (Nat.toDigits 10 n ++ rest) = _ :=
    takeBounded_digits isDigit_toDigits (fun c hc => (stops c hc).1) (hvalue.trans_le h)
  rwa [hvalue] at hstart

/-- A natural number of 64 bits is read with the sign before it. -/
theorem readNumber_toDigits {n : Nat} (h : n ≤ maxSignificand) (negative : Bool)
    {rest : List Char} (stops : Stops rest) (index : Nat) :
    Reads (readNumber negative ⟨Nat.toDigits 10 n ++ rest, index⟩) (ofWhole negative n) rest := by
  have htake := takeBounded_toDigits h stops
  obtain ⟨first, more, hdigits⟩ := List.exists_cons_of_ne_nil (Nat.toDigits_ne_nil (n := n) (b := 10))
  have hfirst : first.isDigit = true := isDigit_toDigits first (hdigits ▸ List.mem_cons_self)
  have hzero (hf : first = '0') : n = 0 ∧ more = [] := by
    have hn : n = 0 := by
      by_contra hn
      exact head?_toDigits_ne hn (by rw [hdigits, hf]; rfl)
    subst hn
    exact ⟨rfl, (List.cons.inj hdigits).2.symm⟩
  have hlead : ¬ (first = '0' ∧ ((more ++ rest).head?.map Char.isDigit).getD false = true) := by
    rintro ⟨hf, hnext⟩
    rw [(hzero hf).2, List.nil_append] at hnext
    cases rest with
    | nil => contradiction
    | cons c rest => exact absurd hnext (by simp [(stops c rfl).1])
  have htaken : (if first = '0' then (0, 1, false, more ++ rest)
      else takeBounded maxSignificand 0 (first :: (more ++ rest))) =
        (n, (first :: more).length, false, rest) := by
    split_ifs with hf
    · obtain ⟨rfl, rfl⟩ := hzero hf
      rfl
    · rwa [hdigits] at htake
  rw [hdigits, List.cons_append]
  refine ⟨index + (first :: more).length, ?_⟩
  simp only [readNumber, hfirst, hlead, htaken, Bool.not_true, Bool.false_eq_true, if_false,
    List.length_nil, Nat.add_zero]
  cases rest with
  | nil => rfl
  | cons c rest =>
    obtain ⟨-, hpoint, hlower, hupper⟩ := stops c rfl
    split <;> simp_all

end Numbers

private theorem length_le_flatMap_escape (text : List Char) :
    text.length ≤ (text.flatMap escape).length := by
  have hpos : ∀ c, 1 ≤ (escape c).length := fun c => by
    unfold escape
    split_ifs <;> simp
  have hsum := List.length_le_sum_of_one_le (text.map fun c => (escape c).length)
    (List.forall_mem_map.mpr fun c _ => hpos c)
  rwa [List.length_map, ← List.length_flatMap] at hsum

/-- A string is read up to its closing quote. -/
theorem readString_quoted (s : String) (rest : List Char) (index : Nat) :
    Reads (readString ⟨s.toList.flatMap escape ++ '"' :: rest, index⟩) s rest := by
  have hlength := length_le_flatMap_escape s.toList
  obtain ⟨next, hread⟩ := readChars_flatMap_escape s.toList rest
    ((s.toList.flatMap escape ++ '"' :: rest).length + 1) index
    (by rw [List.length_append]; omega)
  refine ⟨next, ?_⟩
  rw [readString, hread]
  simp [bind, Except.bind, pure, Except.pure]

section Starts
variable {depth : Nat} {text rest : List Char} {t : Tree}

/-- A sign or a digit. -/
theorem digits_cases (n : Int) :
    (∃ k : Nat, n = k ∧ digits n = Nat.toDigits 10 k) ∨
      ∃ k : Nat, n = -((k + 1 : Nat) : Int) ∧ digits n = '-' :: Nat.toDigits 10 (k + 1) := by
  cases n with
  | ofNat k => exact .inl ⟨k, rfl, Nat.toList_repr⟩
  | negSucc k =>
    refine .inr ⟨k, rfl, ?_⟩
    simp [digits, Int.toString_eq_repr, Int.repr, Nat.toList_repr]

def Opens (c : Char) : Prop := c.isDigit = true ∨ c ∈ ['n', 't', 'f', '"', '-', '[', '\x7b']

private theorem opens_toDigits {n : Nat} {c : Char} {more : List Char}
    (h : Nat.toDigits 10 n = c :: more) : Opens c :=
  .inl (isDigit_toDigits c (h ▸ List.mem_cons_self))

/-- No document starts with white space or with the end of an array. -/
theorem Opens.solid {c : Char} (h : Opens c) : ¬ IsBlank c ∧ c ≠ ']' := by
  obtain digit | word := h
  · constructor
    · rintro (rfl | rfl | rfl | rfl) <;> contradiction
    · rintro rfl
      contradiction
  · simp only [List.mem_cons, List.not_mem_nil, or_false] at word
    rcases word with rfl | rfl | rfl | rfl | rfl | rfl | rfl <;> simp [IsBlank]

/-- No document starts with a byte order mark. -/
theorem Opens.toNat_ne {c : Char} (h : Opens c) : c.toNat ≠ 0xfeff := by
  intro hmark
  obtain rfl : c = Char.ofNat 0xfeff := by rw [← hmark, Char.ofNat_toNat]
  revert h
  unfold Opens
  decide

theorem Document.starts (h : Document depth text t rest) : ∃ c more, text = c :: more ∧ Opens c := by
  cases h with
  | null | string | emptyArray | array | emptyObject | object =>
    exact ⟨_, _, rfl, .inr (by decide)⟩
  | bool b => cases b <;> exact ⟨_, _, rfl, .inr (by decide)⟩
  | @integer _ _ n _ _ =>
    obtain ⟨k, -, hk⟩ | ⟨k, -, hk⟩ := digits_cases n
    · obtain ⟨c, more, hcons⟩ := List.exists_cons_of_ne_nil (Nat.toDigits_ne_nil (n := k) (b := 10))
      exact ⟨c, more ++ rest, by rw [hk, hcons, List.cons_append], opens_toDigits hcons⟩
    · exact ⟨_, _, by rw [hk, List.cons_append], .inr (by decide)⟩

end Starts

private theorem length_lt_append {word : List Char} (h : word ≠ []) (rest : List Char) :
    rest.length < (word ++ rest).length := by
  have := List.length_pos_iff.mpr h
  rw [List.length_append]
  omega

theorem digits_ne_nil (n : Int) : digits n ≠ [] := by
  obtain ⟨k, -, hk⟩ | ⟨k, -, hk⟩ := digits_cases n <;> rw [hk]
  · exact Nat.toDigits_ne_nil
  · exact List.cons_ne_nil _ _

mutual

/-- What follows a document is shorter than the text that starts with it. -/
theorem Document.length_lt {depth : Nat} {text rest : List Char} {t : Tree} :
    Document depth text t rest → rest.length < text.length
  | .null => length_lt_append (by decide) rest
  | .bool b => length_lt_append (by cases b <;> decide) rest
  | .integer _ _ => length_lt_append (digits_ne_nil _) rest
  | .string _ => length_lt_append (List.cons_ne_nil _ _) rest
  | .emptyArray _ | .emptyObject _ => by
    rw [List.length_cons, List.length_append, List.length_cons]
    omega
  | .array content => Nat.lt_succ_of_lt content.length_lt
  | .object content => Nat.lt_succ_of_lt content.length_lt

private theorem Items.length_lt {depth : Nat} {text rest : List Char} {items : List Tree} :
    Items depth text items rest → rest.length < text.length
  | .last _ _ first => by
    have := first.length_lt
    simp only [List.length_append, List.length_cons] at this ⊢
    omega
  | .more _ _ first next => by
    have := first.length_lt
    have := next.length_lt
    simp only [List.length_append, List.length_cons] at *
    omega

private theorem Members.length_lt {depth : Nat} {text rest : List Char} {fields : List (String × Tree)} :
    Members depth text fields rest → rest.length < text.length
  | .last _ _ _ _ _ first => by
    have := first.length_lt
    simp only [List.length_append, List.length_cons] at this ⊢
    omega
  | .more _ _ _ _ _ first next => by
    have := first.length_lt
    have := next.length_lt
    simp only [List.length_append, List.length_cons] at *
    omega

end

section Readers
variable {α β : Type} {depth fuel index : Nat} {c : Char} {gap rest : List Char}

theorem Reads.bind {x : Except ReadError (α × Cursor)} {f : α × Cursor → Except ReadError (β × Cursor)}
    {a : α} {b : β} {more rest : List Char} (first : Reads x a more)
    (next : ∀ index, Reads (f (a, ⟨more, index⟩)) b rest) : Reads (x >>= f) b rest := by
  obtain ⟨index, rfl⟩ := first
  exact next index

private theorem readValue_gap (blank : IsGap gap) (solid : ¬ IsBlank c) :
    readValue (fuel + 1) depth ⟨gap ++ c :: rest, index⟩ =
      readValue (fuel + 1) depth ⟨c :: rest, index + gap.length⟩ := by
  rw [readValue, readValue, skipSpace_gap blank solid, skipSpace_solid solid]

private theorem readValue_isDigit (h : c.isDigit = true) :
    readValue (fuel + 1) depth ⟨c :: rest, index⟩ = readNumber false ⟨c :: rest, index⟩ := by
  have opens : Opens c := .inl h
  rw [readValue, skipSpace_solid opens.solid.1]
  split <;> simp_all

private theorem readValue_digits {n : Int} (size : n.natAbs ≤ twoTo 63) (stops : Stops rest) :
    Reads (readValue (fuel + 1) depth ⟨digits n ++ rest, index⟩) (.integer n) rest := by
  obtain ⟨k, rfl, hk⟩ | ⟨k, rfl, hk⟩ := digits_cases n
  · obtain ⟨c, more, hcons⟩ := List.exists_cons_of_ne_nil (Nat.toDigits_ne_nil (n := k) (b := 10))
    have hc : c.isDigit = true := isDigit_toDigits c (hcons ▸ List.mem_cons_self)
    have hread := readNumber_toDigits (n := k) (Nat.le_trans size (by decide)) false stops index
    rw [hcons, List.cons_append] at hread
    rw [hk, hcons, List.cons_append, readValue_isDigit hc]
    exact hread
  · have hread := readNumber_toDigits (n := k + 1) (Nat.le_trans size (by decide)) true stops (index + 1)
    have hwhole : ofWhole true (k + 1) = .integer (-((k + 1 : Nat) : Int)) := by
      have : ¬ (k + 1 = 0 ∨ twoTo 63 < k + 1) := by omega
      exact if_neg this
    rw [hwhole] at hread
    rw [hk, List.cons_append, readValue]
    exact hread

private theorem readValue_null :
    Reads (readValue (fuel + 1) depth ⟨"null".toList ++ rest, index⟩) .null rest := by
  refine ⟨index + 4, ?_⟩
  simp [readValue, skipSpace_solid, IsBlank, readWord, bind, Except.bind, pure, Except.pure]

private theorem readValue_bool (b : Bool) :
    Reads (readValue (fuel + 1) depth ⟨(if b then "true" else "false").toList ++ rest, index⟩)
      (.bool b) rest := by
  refine ⟨index + if b then 4 else 5, ?_⟩
  cases b <;>
    simp [readValue, skipSpace_solid, IsBlank, readWord, bind, Except.bind, pure, Except.pure]

private def readItem (fuel depth : Nat) (c : Cursor) : Except ReadError (List Tree × Cursor) := do
  let (item, c) ← readValue fuel depth c
  let (more, c) ← readMoreItems fuel depth c
  return (item :: more, c)

variable {text : List Char} {t : Tree}

private theorem readItems_item (blank : IsGap gap) (solid : ¬ IsBlank c) (hend : c ≠ ']') :
    readItems (fuel + 1) depth ⟨gap ++ c :: rest, index⟩ =
      readItem fuel depth ⟨c :: rest, index + gap.length⟩ := by
  rw [readItems, skipSpace_gap blank solid]
  split <;> simp_all [readItem]

private theorem readMoreItems_item {after : List Char} (blank' : IsGap after) (blank : IsGap gap)
    (solid : ¬ IsBlank c) (hend : c ≠ ']') :
    readMoreItems (fuel + 1) depth ⟨after ++ ',' :: (gap ++ c :: rest), index⟩ =
      readItem fuel depth ⟨c :: rest, index + after.length + 1 + gap.length⟩ := by
  rw [readMoreItems, skipSpace_gap blank' (by simp [IsBlank])]
  simp only [skipSpace_gap blank solid]
  split <;> simp_all [readItem]

private theorem readItems_end (blank : IsGap gap) :
    Reads (readItems (fuel + 1) depth ⟨gap ++ ']' :: rest, index⟩) [] rest := by
  rw [readItems, skipSpace_gap blank (by simp [IsBlank])]
  exact ⟨_, rfl⟩

private theorem readMoreItems_end (blank : IsGap gap) :
    Reads (readMoreItems (fuel + 1) depth ⟨gap ++ ']' :: rest, index⟩) [] rest := by
  rw [readMoreItems, skipSpace_gap blank (by simp [IsBlank])]
  exact ⟨_, rfl⟩

private theorem readPairs_end (blank : IsGap gap) :
    Reads (readPairs (fuel + 1) depth ⟨gap ++ '\x7d' :: rest, index⟩) [] rest := by
  rw [readPairs, skipSpace_gap blank (by simp [IsBlank])]
  exact ⟨_, rfl⟩

private theorem readMorePairs_end (blank : IsGap gap) :
    Reads (readMorePairs (fuel + 1) depth ⟨gap ++ '\x7d' :: rest, index⟩) [] rest := by
  rw [readMorePairs, skipSpace_gap blank (by simp [IsBlank])]
  exact ⟨_, rfl⟩

private theorem readPairs_pair (blank : IsGap gap) :
    readPairs (fuel + 1) depth ⟨gap ++ '"' :: rest, index⟩ =
      readPair fuel depth ⟨rest, index + gap.length + 1⟩ := by
  rw [readPairs, skipSpace_gap blank (by simp [IsBlank])]
  rfl

private theorem readMorePairs_pair {after : List Char} (blank' : IsGap after) (blank : IsGap gap) :
    readMorePairs (fuel + 1) depth ⟨after ++ ',' :: (gap ++ '"' :: rest), index⟩ =
      readPair fuel depth ⟨rest, index + after.length + 1 + gap.length + 1⟩ := by
  rw [readMorePairs, skipSpace_gap blank' (by simp [IsBlank])]
  simp only [skipSpace_gap blank (show ¬ IsBlank '"' by simp [IsBlank])]

private theorem readPair_field {value : Tree} {more : List (String × Tree)} {tail : List Char}
    (key : String) (blank : IsGap gap)
    (first : ∀ index, Reads (readValue fuel depth ⟨text, index⟩) value tail)
    (next : ∀ index, Reads (readMorePairs fuel depth ⟨tail, index⟩) more rest) :
    Reads (readPair (fuel + 1) depth
      ⟨key.toList.flatMap escape ++ '"' :: (gap ++ ':' :: text), index⟩) ((key, value) :: more) rest := by
  rw [readPair]
  refine (readString_quoted key _ index).bind fun _ => ?_
  simp only [skipSpace_gap blank (show ¬ IsBlank ':' by simp [IsBlank])]
  refine (first _).bind fun _ => ?_
  refine (next _).bind fun _ => ⟨_, rfl⟩

end Readers

private theorem Document.reads_gap {depth fuel : Nat} {gap text rest : List Char} {t : Tree}
    (h : Document depth text t rest) (blank : IsGap gap)
    (reads : ∀ index, Reads (readValue (fuel + 1) depth ⟨text, index⟩) t rest) (index : Nat) :
    Reads (readValue (fuel + 1) depth ⟨gap ++ text, index⟩) t rest := by
  obtain ⟨c, more, rfl, opens⟩ := h.starts
  rw [readValue_gap blank opens.solid.1]
  exact reads _

private def ReadsItems (fuel depth : Nat) (text : List Char) (items : List Tree)
    (rest : List Char) : Prop :=
  (∀ index, Reads (readItems (fuel + 1) depth ⟨text, index⟩) items rest) ∧
    ∀ after, IsGap after → ∀ index,
      Reads (readMoreItems (fuel + 1) depth ⟨after ++ ',' :: text, index⟩) items rest

private def ReadsMembers (fuel depth : Nat) (text : List Char) (fields : List (String × Tree))
    (rest : List Char) : Prop :=
  (∀ index, Reads (readPairs (fuel + 1) depth ⟨text, index⟩) fields rest) ∧
    ∀ after, IsGap after → ∀ index,
      Reads (readMorePairs (fuel + 1) depth ⟨after ++ ',' :: text, index⟩) fields rest

section Lists
variable {depth fuel : Nat} {gap text tail rest : List Char} {item value : Tree}
  {items : List Tree} {fields : List (String × Tree)}

private theorem readsItems_cons (blank : IsGap gap) (h : Document depth text item tail)
    (first : ∀ index, Reads (readValue fuel depth ⟨text, index⟩) item tail)
    (next : ∀ index, Reads (readMoreItems fuel depth ⟨tail, index⟩) items rest) :
    ReadsItems fuel depth (gap ++ text) (item :: items) rest := by
  have hitem : ∀ index, Reads (readItem fuel depth ⟨text, index⟩) (item :: items) rest :=
    fun index => (first index).bind fun _ => (next _).bind fun _ => ⟨_, rfl⟩
  obtain ⟨c, more, rfl, opens⟩ := h.starts
  obtain ⟨solid, hend⟩ := opens.solid
  constructor
  · intro index
    rw [readItems_item blank solid hend]
    exact hitem _
  · intro after blank' index
    rw [readMoreItems_item blank' blank solid hend]
    exact hitem _

private theorem readsMembers_cons {colon before : List Char} (key : String) (blank : IsGap before)
    (blankColon : IsGap colon)
    (first : ∀ index, Reads (readValue fuel depth ⟨gap ++ text, index⟩) value tail)
    (next : ∀ index, Reads (readMorePairs fuel depth ⟨tail, index⟩) fields rest) :
    ReadsMembers (fuel + 1) depth (before ++ (quoted key ++ (colon ++ ':' :: (gap ++ text))))
      ((key, value) :: fields) rest := by
  have hquoted : quoted key ++ (colon ++ ':' :: (gap ++ text)) =
      '"' :: (key.toList.flatMap escape ++ '"' :: (colon ++ ':' :: (gap ++ text))) := by
    rw [quoted, List.cons_append, List.append_assoc, List.singleton_append]
  rw [hquoted]
  constructor
  · intro index
    rw [readPairs_pair blank]
    exact readPair_field key blankColon first next
  · intro after blank' index
    rw [readMorePairs_pair blank' blank]
    exact readPair_field key blankColon first next

end Lists

-- The induction is on the derivation. A list and its first item begin at the same character but
-- take one unit of fuel each, so a text needs two units for each of its characters.
mutual

/-- A document of the grammar is read, and the reader stops where it ends. -/
theorem Document.reads {depth : Nat} {text rest : List Char} {t : Tree} :
    Document depth text t rest → ∀ {fuel : Nat}, 2 * text.length ≤ fuel + 1 → ∀ index,
      Reads (readValue (fuel + 1) depth ⟨text, index⟩) t rest
  | .null, _, _, _ => readValue_null
  | .bool b, _, _, _ => readValue_bool b
  | .integer size stops, _, _, index => readValue_digits size stops
  | .string s, fuel, _, index => by
    rw [quoted, List.cons_append, List.append_assoc, readValue]
    exact (readString_quoted s rest (index + 1)).bind fun _ => ⟨_, rfl⟩
  | .emptyArray blank, fuel, enough, index => by
    simp only [List.length_cons, List.length_append] at enough
    obtain ⟨fuel, rfl⟩ : ∃ n, fuel = n + 1 := ⟨fuel - 1, by omega⟩
    rw [readValue, skipSpace_solid (by simp [IsBlank])]
    exact (readItems_end blank).bind fun _ => ⟨_, rfl⟩
  | .array content, fuel, enough, index => by
    have := content.length_lt
    rw [List.length_cons] at enough
    obtain ⟨fuel, rfl⟩ : ∃ n, fuel = n + 2 := ⟨fuel - 2, by omega⟩
    rw [readValue, skipSpace_solid (by simp [IsBlank])]
    exact ((content.reads (by omega)).1 _).bind fun _ => ⟨_, rfl⟩
  | .emptyObject blank, fuel, enough, index => by
    simp only [List.length_cons, List.length_append] at enough
    obtain ⟨fuel, rfl⟩ : ∃ n, fuel = n + 1 := ⟨fuel - 1, by omega⟩
    rw [readValue, skipSpace_solid (by simp [IsBlank])]
    exact (readPairs_end blank).bind fun _ => ⟨_, rfl⟩
  | .object content, fuel, enough, index => by
    have := content.length_lt
    rw [List.length_cons] at enough
    obtain ⟨fuel, rfl⟩ : ∃ n, fuel = n + 3 := ⟨fuel - 3, by omega⟩
    rw [readValue, skipSpace_solid (by simp [IsBlank])]
    exact ((content.reads (by omega)).1 _).bind fun _ => ⟨_, rfl⟩

private theorem Items.reads {depth : Nat} {text rest : List Char} {items : List Tree} :
    Items depth text items rest → ∀ {fuel : Nat}, 2 * text.length ≤ fuel + 1 →
      ReadsItems (fuel + 1) depth text items rest
  | .last blank blank' first, fuel, enough => by
    rw [List.length_append] at enough
    exact readsItems_cons blank first (first.reads (by omega)) fun _ => readMoreItems_end blank'
  | .more blank blank' first next, fuel, enough => by
    have hfirst := first.length_lt
    have hnext := next.length_lt
    simp only [List.length_append, List.length_cons] at enough hfirst
    obtain ⟨fuel, rfl⟩ : ∃ n, fuel = n + 1 := ⟨fuel - 1, by omega⟩
    exact readsItems_cons blank first (first.reads (by omega)) ((next.reads (by omega)).2 _ blank')

private theorem Members.reads {depth : Nat} {text rest : List Char} {fields : List (String × Tree)} :
    Members depth text fields rest → ∀ {fuel : Nat}, 2 * text.length ≤ fuel + 2 →
      ReadsMembers (fuel + 2) depth text fields rest
  | .last key blank blankColon blankGap blank' first, fuel, enough => by
    simp only [List.length_append, List.length_cons] at enough
    exact readsMembers_cons key blank blankColon
      (first.reads_gap blankGap (first.reads (by omega))) fun _ => readMorePairs_end blank'
  | .more key blank blankColon blankGap blank' first next, fuel, enough => by
    have hfirst := first.length_lt
    have hnext := next.length_lt
    simp only [List.length_append, List.length_cons] at enough hfirst
    obtain ⟨fuel, rfl⟩ : ∃ n, fuel = n + 2 := ⟨fuel - 2, by omega⟩
    exact readsMembers_cons key blank blankColon
      (first.reads_gap blankGap (first.reads (by omega))) ((next.reads (by omega)).2 _ blank')

end

/-- A text of one document, with gaps around it, is read as the document. -/
theorem readWithin_document {depth : Nat} {text before after : List Char} {t : Tree}
    (blank : IsGap before) (blank' : IsGap after) (h : Document depth text t after) :
    readWithin depth (before ++ text) = .ok t := by
  have enough : 2 * text.length ≤ 3 * (before ++ text).length + 2 + 1 := by
    rw [List.length_append]
    omega
  obtain ⟨index, hread⟩ := h.reads_gap blank (h.reads enough) 0
  have hend : Cursor.skipSpace ⟨after, index⟩ = ⟨[], index + after.length⟩ := by
    rw [← List.append_nil after, Cursor.skipSpace, skipFrom_append blank', List.append_nil]
    rfl
  simp only [readWithin, hread, bind, Except.bind, hend]
  rfl

end Tabulate.Json
