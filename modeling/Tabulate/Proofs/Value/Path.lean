import Mathlib.Data.List.Basic
import Mathlib.Tactic.IntervalCases
import Tabulate.Value.Path

/-! Which steps the text of a path stands for: a text without marks is one key, and a key in quotes and
brackets stands for itself unless it holds a closing bracket. -/
namespace Tabulate

namespace Unicode

theorem isBlank_of_isDigit {c : Char} (h : c.isDigit = true) : isBlank c = false := by
  have hcode : 48 ≤ c.toNat ∧ c.toNat ≤ 57 := by
    simp only [Char.isDigit, Bool.and_eq_true, decide_eq_true_eq, ge_iff_le, UInt32.le_iff_toNat_le] at h
    exact h
  rw [isBlank]
  generalize c.toNat = code at hcode
  obtain ⟨low, high⟩ := hcode
  interval_cases code <;> rfl

theorem trim_sublist (text : List Char) : (trim text).Sublist text := by
  have hend := (List.dropWhile_sublist isBlank (l := (text.dropWhile isBlank).reverse)).reverse
  rw [List.reverse_reverse] at hend
  exact hend.trans (List.dropWhile_sublist isBlank)

private theorem dropWhile_solid {c : Char} {text : List Char} (h : text.head? = some c)
    (solid : isBlank c = false) : text.dropWhile isBlank = text := by
  obtain ⟨rest, rfl⟩ := List.head?_eq_some_iff.mp h
  exact List.dropWhile_cons_of_neg (by simp [solid])

/-- A first character that is no blank stays. -/
theorem trim_cons_solid {c : Char} (solid : isBlank c = false) (text : List Char) :
    trim (c :: text) = c :: (text.reverse.dropWhile isBlank).reverse := by
  have hend : (text.reverse ++ [c]).dropWhile isBlank = text.reverse.dropWhile isBlank ++ [c] := by
    rw [List.dropWhile_append, List.dropWhile_cons_of_neg (by simp [solid])]
    split
    next h => rw [List.isEmpty_iff.mp h, List.nil_append]
    next => rfl
  rw [trim, List.dropWhile_cons_of_neg (by simp [solid]), List.reverse_cons, hend, List.reverse_append,
    List.reverse_singleton, List.singleton_append]

/-- A text that neither starts nor ends in a blank is left alone. -/
theorem trim_of_solid {first last : Char} {text : List Char} (hfirst : text.head? = some first)
    (hlast : text.getLast? = some last) (solidFirst : isBlank first = false)
    (solidLast : isBlank last = false) : trim text = text := by
  rw [trim, dropWhile_solid hfirst solidFirst, dropWhile_solid _ solidLast, List.reverse_reverse]
  rw [List.head?_reverse, hlast]

def IsTrimmed (text : List Char) : Prop :=
  (∀ c ∈ text.head?, isBlank c = false) ∧ ∀ c ∈ text.getLast?, isBlank c = false

instance : DecidablePred IsTrimmed := fun text =>
  @instDecidableAnd _ _ (Option.decidableForallMem text.head?) (Option.decidableForallMem text.getLast?)

theorem IsTrimmed.trim_eq {text : List Char} (h : IsTrimmed text) : trim text = text := by
  cases hfirst : text.head? with
  | none => rw [List.head?_eq_none_iff.mp hfirst, trim, List.dropWhile_nil, List.reverse_nil, List.dropWhile_nil,
      List.reverse_nil]
  | some first =>
    have hsome : text ≠ [] := fun hnil => by simp [hnil] at hfirst
    have hlast := List.getLast?_eq_getLast_of_ne_nil hsome
    exact trim_of_solid hfirst hlast (h.1 first hfirst) (h.2 _ hlast)

/-- Texts around a character that is no blank need no trimming together if they need none each. -/
theorem IsTrimmed.append_cons {before after : List Char} {c : Char} (hbefore : IsTrimmed before)
    (hafter : IsTrimmed after) (solid : isBlank c = false) : IsTrimmed (before ++ c :: after) := by
  constructor
  · cases before with
    | nil => exact fun d hd => Option.some.inj hd ▸ solid
    | cons first more => exact hbefore.1
  · rw [List.getLast?_append, List.getLast?_cons]
    cases hlast : after.getLast? with
    | none => exact fun d hd => Option.some.inj hd ▸ solid
    | some last => exact fun d hd => hafter.2 d (hlast.trans hd)

private theorem dropWhile_of_forall {text : List Char} (solid : ∀ c ∈ text, isBlank c = false) :
    text.dropWhile isBlank = text := by
  cases text with
  | nil => rfl
  | cons c text => exact dropWhile_solid rfl (solid c List.mem_cons_self)

/-- A text without blanks is left alone. -/
theorem trim_of_forall {text : List Char} (solid : ∀ c ∈ text, isBlank c = false) : trim text = text := by
  have hreverse : ∀ c ∈ text.reverse, isBlank c = false := fun c hc => solid c (List.mem_reverse.mp hc)
  rw [trim, dropWhile_of_forall solid, dropWhile_of_forall hreverse, List.reverse_reverse]

end Unicode

namespace PathStep

/-- A key in quotes stands for itself. -/
theorem ofBrackets?_quoted (name : List Char) :
    ofBrackets? ('\'' :: (name ++ ['\''])) = some (.key (String.ofList name)) := by
  have hlast : ('\'' :: (name ++ ['\''])).getLast? = some '\'' := by
    rw [← List.cons_append, List.getLast?_concat]
  have htrim : Unicode.trim ('\'' :: (name ++ ['\''])) = '\'' :: (name ++ ['\'']) :=
    Unicode.trim_of_solid rfl hlast (by decide) (by decide +kernel)
  have hname : unquote? '\'' ('\'' :: (name ++ ['\''])) = some name := by
    rw [unquote?, if_pos ⟨rfl, List.getLast?_concat⟩, List.dropLast_concat]
  simp only [ofBrackets?, htrim, hname, Option.some_or]

/-- What starts with a quote stands for a key of some of its characters. -/
theorem ofBrackets?_quote (text : List Char) : ∃ name : List Char,
    ofBrackets? ('\'' :: text) = some (.key (String.ofList name)) ∧ name ⊆ '\'' :: text := by
  have htrim := Unicode.trim_cons_solid (c := '\'') (by decide) text
  have hsub : Unicode.trim ('\'' :: text) ⊆ '\'' :: text := (Unicode.trim_sublist _).subset
  generalize hmore : (text.reverse.dropWhile Unicode.isBlank).reverse = more at htrim
  rw [htrim] at hsub
  by_cases hclosed : more.getLast? = some '\''
  · have hname : unquote? '\'' ('\'' :: more) = some more.dropLast := if_pos ⟨rfl, hclosed⟩
    refine ⟨more.dropLast, ?_, fun c hc => hsub (List.mem_cons_of_mem _ (List.dropLast_subset _ hc))⟩
    simp only [ofBrackets?, htrim, hname, Option.some_or]
  · have hname : unquote? '\'' ('\'' :: more) = none := if_neg fun h => hclosed h.2
    have hother : unquote? '"' ('\'' :: more) = none := by
      rw [unquote?, if_neg fun h => absurd h.1 (by decide)]
    have hindex : readIndex? ('\'' :: more) = none := by simp [readIndex?]
    refine ⟨'\'' :: more, ?_, hsub⟩
    simp only [ofBrackets?, htrim, hname, hother, hindex, Option.or_none]
    rfl

end PathStep

namespace Path

theorem withoutRoot_sublist (text : List Char) : (withoutRoot text).Sublist text := by
  unfold withoutRoot
  split
  next => exact (List.sublist_cons_self _ _).cons _
  next => exact List.sublist_cons_self _ _
  next => exact List.Sublist.refl _

theorem withoutRoot_of_head {text : List Char} (h : text.head? ≠ some '$') : withoutRoot text = text := by
  unfold withoutRoot
  split
  next => exact absurd rfl h
  next => exact absurd rfl h
  next => rfl

private theorem split_cons (current : List Char) (c : Char) (rest : List Char) :
    split current none (c :: rest) =
      if c = '.' then flush current ++ split [] none rest
      else if c = '[' then flush current ++ split [] (some []) rest
      else split (c :: current) none rest := rfl

theorem split_append {text : List Char} (plain : ∀ c ∈ text, c ≠ '.' ∧ c ≠ '[')
    (current rest : List Char) :
    split current none (text ++ rest) = split (text.reverse ++ current) none rest := by
  induction text generalizing current with
  | nil => rfl
  | cons c text ih =>
    rw [List.forall_mem_cons] at plain
    rw [List.cons_append, split_cons, if_neg plain.1.1, if_neg plain.1.2, ih plain.2, List.reverse_cons,
      List.append_assoc, List.singleton_append]

theorem split_plain {text : List Char} (plain : ∀ c ∈ text, c ≠ '.' ∧ c ≠ '[') (current : List Char) :
    split current none text = flush (text.reverse ++ current) := by
  rw [← List.append_nil text, split_append plain, List.append_nil]
  rfl

private theorem split_inner {inner : List Char} (closed : ']' ∉ inner) (current before rest : List Char) :
    split current (some before) (inner ++ ']' :: rest) =
      (PathStep.ofBrackets? (before.reverse ++ inner)).toList ++ split [] none rest := by
  induction inner generalizing before with
  | nil => rw [List.nil_append, split, if_pos rfl, List.append_nil]
  | cons c inner ih =>
    rw [List.mem_cons, not_or] at closed
    rw [List.cons_append, split, if_neg (Ne.symm closed.1), ih closed.2, List.reverse_cons,
      List.append_assoc, List.singleton_append]

/-- Brackets reach up to the first closing one. -/
theorem split_brackets {inner : List Char} (closed : ']' ∉ inner) (current rest : List Char) :
    split current none ('[' :: (inner ++ ']' :: rest)) =
      flush current ++ ((PathStep.ofBrackets? inner).toList ++ split [] none rest) := by
  rw [split_cons, if_neg (by decide), if_pos rfl, split_inner closed, List.reverse_nil, List.nil_append]

end Path

/-- The parts of a path are followed one after the other. -/
theorem Value.at?_append (v : Value) (path more : Path) :
    v.at? (path ++ more) = (v.at? path).bind fun w => w.at? more := List.foldlM_append

end Tabulate
