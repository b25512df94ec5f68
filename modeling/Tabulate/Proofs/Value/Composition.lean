import Tabulate.Proofs.Value.Path

/-! Paths that are joined by a point. The text of both stands for the steps of the one and then of the other,
so it selects in what the first selects. -/
namespace Tabulate

namespace Path
variable {before : List Char}

/-- A text in which each bracket that is met from the left is closed: an opening one reaches up to the first
closing one behind it. -/
inductive ClosesBrackets : List Char → Prop
  | nil : ClosesBrackets []
  | plain {c : Char} {rest : List Char} : c ≠ '[' → ClosesBrackets rest → ClosesBrackets (c :: rest)
  | brackets {inner rest : List Char} :
    ']' ∉ inner → ClosesBrackets rest → ClosesBrackets ('[' :: (inner ++ ']' :: rest))

/-- A point outside of brackets ends the steps before it. -/
theorem split_append_point (closed : ClosesBrackets before) (current after : List Char) :
    split current none (before ++ '.' :: after) = split current none before ++ split [] none after := by
  induction closed generalizing current with
  | nil => simp [split]
  | @plain c rest hopen _ ih =>
    rw [List.cons_append, split, split, if_neg hopen, if_neg hopen]
    split
    next => rw [ih, List.append_assoc]
    next => exact ih (c :: current)
  | @brackets inner rest hinner _ ih =>
    rw [List.cons_append, List.append_assoc, List.cons_append, split_brackets hinner, split_brackets hinner, ih]
    simp only [List.append_assoc]

theorem ClosesBrackets.of_cons {c : Char} {rest : List Char} (h : ClosesBrackets (c :: rest)) (other : c ≠ '[') :
    ClosesBrackets rest := by
  cases h with
  | plain _ h => exact h
  | brackets => exact absurd rfl other

/-- The mark of the root is the same with and without a second path. Behind the mark alone the point belongs
to it, and there is no step before the point. -/
theorem split_withoutRoot_append_point (closed : ClosesBrackets before) (after : List Char) :
    split [] none (withoutRoot (before ++ '.' :: after)) =
      split [] none (withoutRoot before) ++ split [] none after := by
  by_cases hroot : before.head? = some '$'
  · obtain ⟨rest, rfl⟩ := List.head?_eq_some_iff.mp hroot
    have hrest := closed.of_cons (by decide)
    cases rest with
    | nil => rfl
    | cons c more =>
      by_cases hpoint : c = '.'
      · subst hpoint
        exact split_append_point (hrest.of_cons (by decide)) [] after
      · have hmark : ∀ text, withoutRoot ('$' :: c :: text) = c :: text := by
          intro text
          unfold withoutRoot
          split
          next heq => exact absurd (List.cons.inj (List.cons.inj heq).2).1 hpoint
          next heq => exact (List.cons.inj heq).2.symm
          next h => exact absurd rfl (h _)
        rw [List.cons_append, List.cons_append, hmark, hmark]
        exact split_append_point hrest [] after
  · have hjoined : (before ++ '.' :: after).head? ≠ some '$' := by
      cases before with
      | nil => exact fun heq => absurd (Option.some.inj heq) (by decide)
      | cons c more => exact hroot
    rw [withoutRoot_of_head hjoined, withoutRoot_of_head hroot, split_append_point closed]

end Path

namespace Value

/-- No step leads on from null. -/
theorem at?_null (path : Path) : (null.at? path).getD null = null := by
  cases path <;> rfl

/-- Selecting in what a path leads to, null where it leads to nothing, follows both paths. -/
theorem at?_append_getD (v : Value) (path more : Path) :
    (v.at? (path ++ more)).getD null = (((v.at? path).getD null).at? more).getD null := by
  rw [at?_append]
  cases v.at? path with
  | none => exact (at?_null more).symm
  | some w => rfl

/-- A path and, behind a point, a path without the mark of the root are read one after the other, and select what
the second selects in what the first selects. -/
theorem resolve_append_point {p q : String} (trimmed : Unicode.IsTrimmed p.toList)
    (trimmed' : Unicode.IsTrimmed q.toList) (closed : Path.ClosesBrackets p.toList)
    (unmarked : q.toList.head? ≠ some '$') :
    Path.ofText (p ++ "." ++ q) = Path.ofText p ++ Path.ofText q ∧
      ∀ v : Value, v.resolve (p ++ "." ++ q) = (v.resolve p).resolve q := by
  have htext : (p ++ "." ++ q).toList = p.toList ++ '.' :: q.toList := by simp
  have hpath : Path.ofText (p ++ "." ++ q) = Path.ofText p ++ Path.ofText q := by
    rw [Path.ofText, htext, (trimmed.append_cons trimmed' (by decide)).trim_eq,
      Path.split_withoutRoot_append_point closed, Path.ofText, trimmed.trim_eq, Path.ofText, trimmed'.trim_eq,
      Path.withoutRoot_of_head unmarked]
  exact ⟨hpath, fun v => by rw [resolve, hpath, at?_append_getD, resolve, resolve]⟩

/-- A key in brackets with a point of its own, and a bracket that is left open behind. -/
theorem resolve_append_point_quoted :
    let p := "$a['b.c']"
    let q := "d["
    let v := Value.object [("a", .object [("b.c", .object [("d", .string "x")])])]
    Unicode.IsTrimmed p.toList ∧ Unicode.IsTrimmed q.toList ∧ Path.ClosesBrackets p.toList ∧
      q.toList.head? ≠ some '$' ∧ Path.ofText (p ++ "." ++ q) = [.key "a", .key "b.c"] ++ [.key "d"] ∧
      v.resolve (p ++ "." ++ q) = .string "x" := by
  intro p q v
  have trimmed : Unicode.IsTrimmed p.toList ∧ Unicode.IsTrimmed q.toList := by decide +kernel
  have closed : Path.ClosesBrackets p.toList := by
    have htext : p.toList = '$' :: 'a' :: '[' :: ("'b.c'".toList ++ ']' :: []) := by decide
    rw [htext]
    exact .plain (by decide) (.plain (by decide) (.brackets (by decide) .nil))
  have unmarked : q.toList.head? ≠ some '$' := by decide
  have hp : Path.ofText p = [.key "a", .key "b.c"] := by decide +kernel
  have hq : Path.ofText q = [.key "d"] := by decide +kernel
  obtain ⟨hpath, hvalue⟩ := resolve_append_point trimmed.1 trimmed.2 closed unmarked
  refine ⟨trimmed.1, trimmed.2, closed, unmarked, by rw [hpath, hp, hq], ?_⟩
  rw [hvalue, resolve, resolve, hp, hq]
  rfl

end Value
end Tabulate
