import Mathlib.Data.List.Basic

/-! What a stable sort is, and that merge sort is one. -/
namespace Tabulate
variable {α : Type}

/-- A list in order; items of one place stand in their first order. -/
structure StablySorted (le : α → α → Bool) (items sorted : List α) : Prop where
  perm : sorted.Perm items
  ordered : sorted.Pairwise fun a b => le a b
  stable : ∀ a, sorted.filter (fun b => le a b && le b a) = items.filter fun b => le a b && le b a

/-- Merge sort is stable for every order that compares any two items and is transitive. -/
theorem stablySorted_mergeSort {le : α → α → Bool} (trans : ∀ a b c, le a b → le b c → le a c)
    (total : ∀ a b, le a b || le b a) (items : List α) :
    StablySorted le items (items.mergeSort le) where
  perm := List.mergeSort_perm items le
  ordered := List.pairwise_mergeSort trans total items
  stable a := by
    let level := fun b => le a b && le b a
    have hpair : (items.filter level).Pairwise fun b c => le b c := by
      apply List.pairwise_of_forall_mem_list
      intro b hb c hc
      have hb := (List.mem_filter.mp hb).2
      have hc := (List.mem_filter.mp hc).2
      simp only [level, Bool.and_eq_true] at hb hc
      exact trans b a c hb.2 hc.1
    have hsub : ((items.filter level).filter level).Sublist ((items.mergeSort le).filter level) :=
      (List.sublist_mergeSort trans total hpair List.filter_sublist).filter level
    rw [List.filter_filter] at hsub
    simp only [Bool.and_self] at hsub
    have hlen := ((List.mergeSort_perm items le).filter level).length_eq
    exact (hsub.eq_of_length hlen.symm).symm

/-- Two lists of the same items in order are one list if items of one place stand in the same order
in both. -/
theorem eq_of_stable {le : α → α → Bool} {l m : List α} (refl : ∀ a ∈ l, le a a) (perm : l.Perm m)
    (hl : l.Pairwise fun a b => le a b) (hm : m.Pairwise fun a b => le a b)
    (stable : ∀ a ∈ l, l.filter (fun b => le a b && le b a) = m.filter fun b => le a b && le b a) :
    l = m := by
  induction l generalizing m with
  | nil => exact perm.nil_eq
  | cons a l ih =>
    cases m with
    | nil => exact absurd perm.symm (List.not_perm_nil_cons a l)
    | cons b m =>
      have ha : le a a := refl a List.mem_cons_self
      have hab : le a b := by
        rcases List.mem_cons.mp (perm.mem_iff.mpr List.mem_cons_self) with rfl | hmem
        · exact ha
        · exact List.rel_of_pairwise_cons hl hmem
      have hba : le b a := by
        rcases List.mem_cons.mp (perm.mem_iff.mp List.mem_cons_self) with rfl | hmem
        · exact ha
        · exact List.rel_of_pairwise_cons hm hmem
      -- The items of the place of `a` start with `a` in the one list and with `b` in the other.
      have hfirst := stable a List.mem_cons_self
      rw [List.filter_cons_of_pos (by simp [ha]), List.filter_cons_of_pos (by simp [hab, hba])] at hfirst
      obtain rfl : a = b := (List.cons.inj hfirst).1
      congr 1
      refine ih (fun c hc => refl c (List.mem_cons_of_mem _ hc)) perm.cons_inv hl.of_cons hm.of_cons ?_
      intro c hc
      have hlevel := stable c (List.mem_cons_of_mem _ hc)
      rw [List.filter_cons, List.filter_cons] at hlevel
      split at hlevel
      · exact (List.cons.inj hlevel).2
      · exact hlevel

end Tabulate
