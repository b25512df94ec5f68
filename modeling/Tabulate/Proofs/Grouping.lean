import Mathlib.Data.List.Induction
import Mathlib.Data.List.Nodup
import Mathlib.Data.List.Perm.Subperm
import Tabulate.Groups

/-! One pass over items makes the groups that filtering by each key makes. -/
namespace Tabulate.Groups
variable {α β σ κ : Type}

/-- The items that are the first with their key, in order. -/
def firsts [BEq κ] (key : α → κ) (items : List α) : List α :=
  items.eraseDupsBy fun a b => key a == key b

theorem eraseDups_append_singleton [BEq κ] [LawfulBEq κ] [DecidableEq κ] (keys : List κ) (key : κ) :
    (keys ++ [key]).eraseDups = if key ∈ keys then keys.eraseDups else keys.eraseDups ++ [key] := by
  rw [List.eraseDups_append, List.removeAll, List.filter_singleton]
  by_cases h : key ∈ keys
  · simp [h]
  · simp [h, List.eraseDups_cons]

theorem eraseDups_of_nodup [BEq κ] [LawfulBEq κ] {keys : List κ} (distinct : keys.Nodup) : keys.eraseDups = keys := by
  induction keys with
  | nil => rfl
  | cons key keys ih =>
    obtain ⟨hnew, hkeys⟩ := List.nodup_cons.mp distinct
    have hothers : (keys.filter fun other => !other == key) = keys := by
      refine List.filter_eq_self.mpr fun other hother => ?_
      simpa using ne_of_mem_of_not_mem hother hnew
    rw [List.eraseDups_cons, hothers, ih hkeys]

theorem nodup_eraseDups [BEq κ] [LawfulBEq κ] [DecidableEq κ] (keys : List κ) : keys.eraseDups.Nodup := by
  induction keys using List.reverseRecOn with
  | nil => exact List.nodup_nil
  | append_singleton keys key ih =>
    rw [eraseDups_append_singleton]
    split
    · exact ih
    · next h =>
      refine List.nodup_append.mpr ⟨ih, List.nodup_singleton key, fun a ha b hb heq => h ?_⟩
      rw [List.mem_singleton] at hb
      exact List.mem_eraseDups.mp (hb ▸ heq ▸ ha)

/-- Each key is counted once only if no key comes twice. -/
theorem length_eraseDups_eq_iff [BEq κ] [LawfulBEq κ] [DecidableEq κ] {keys : List κ} :
    keys.eraseDups.length = keys.length ↔ keys.Nodup := by
  constructor
  · intro h
    have hsub : keys.eraseDups.Subperm keys :=
      (nodup_eraseDups keys).subperm fun key mem => List.mem_eraseDups.mp mem
    exact (hsub.perm_of_length_le (Nat.le_of_eq h.symm)).nodup_iff.mp (nodup_eraseDups keys)
  · intro distinct
    rw [eraseDups_of_nodup distinct]

section Firsts
variable [BEq κ] [LawfulBEq κ] [DecidableEq κ] (key : α → κ)

omit [LawfulBEq κ] [DecidableEq κ] in
@[simp] theorem firsts_nil : firsts key [] = [] := rfl

theorem firsts_cons (a : α) (rest : List α) :
    firsts key (a :: rest) = a :: firsts key (rest.filter fun b => key b ≠ key a) := by
  rw [firsts, List.eraseDupsBy_cons, firsts]
  congr 3
  funext b
  by_cases h : key b = key a <;> simp [h]

omit [DecidableEq κ] in
/-- Keys that tell the same items apart have the same first items. -/
theorem firsts_congr {κ' : Type} [BEq κ'] [LawfulBEq κ'] {key' : α → κ'}
    (h : ∀ a b, key a = key b ↔ key' a = key' b) (items : List α) :
    firsts key items = firsts key' items := by
  unfold firsts
  congr 1
  funext a b
  rw [Bool.eq_iff_iff, beq_iff_eq, beq_iff_eq, h]

omit [BEq κ] [LawfulBEq κ] in
private theorem filter_filter_ne {k l : κ} (h : l ≠ k) (items : List α) :
    (items.filter fun b => key b ≠ k).filter (fun b => key b = l) =
      items.filter fun b => key b = l := by
  rw [List.filter_filter]
  apply List.filter_congr
  intro b _
  by_cases hb : key b = l <;> simp [hb, h]

omit [BEq κ] [LawfulBEq κ] in
/-- Induction along the groups of a list: the first item, then the items of other keys. -/
theorem groupInduction {motive : List α → Prop} (nil : motive [])
    (cons : ∀ a rest, motive (rest.filter fun b => key b ≠ key a) → motive (a :: rest)) :
    ∀ items, motive items
  | [] => nil
  | a :: rest => cons a rest (groupInduction nil cons (rest.filter fun b => key b ≠ key a))
termination_by items => items.length
decreasing_by exact Nat.lt_succ_of_le (List.length_filter_le _ _)

private theorem mem_of_mem_firsts {a : α} {items : List α} (h : a ∈ firsts key items) : a ∈ items := by
  induction items using groupInduction key with
  | nil => simp at h
  | cons b rest ih =>
    rw [firsts_cons, List.mem_cons] at h
    rcases h with rfl | h
    · exact List.mem_cons_self
    · exact List.mem_cons_of_mem _ (List.mem_filter.mp (ih h)).1

theorem map_firsts (items : List α) : (firsts key items).map key = (items.map key).eraseDups := by
  induction items using groupInduction key with
  | nil => rfl
  | cons a rest ih =>
    rw [firsts_cons, List.map_cons, ih, List.map_cons, List.eraseDups_cons, List.filter_map]
    congr 4
    funext b
    by_cases h : key b = key a <;> simp [h]

/-- A first item heads the group of its key. -/
theorem head?_filter_firsts {a : α} {items : List α} (h : a ∈ firsts key items) :
    (items.filter fun b => key b = key a).head? = some a := by
  induction items using groupInduction key with
  | nil => simp at h
  | cons b rest ih =>
    rw [firsts_cons, List.mem_cons] at h
    rcases h with rfl | h
    · simp
    · have hm := (List.mem_filter.mp (mem_of_mem_firsts key h)).2
      have hne : key a ≠ key b := by simpa using hm
      rw [← filter_filter_ne key hne, List.filter_cons_of_neg (by simp)]
      exact ih h

/-- The groups hold each item once. -/
theorem perm_flatMap_filter (items : List α) :
    ((items.map key).eraseDups.flatMap fun k => items.filter fun b => key b = k).Perm items := by
  induction items using groupInduction key with
  | nil => exact .nil
  | cons a rest ih =>
    have hrest : ((rest.map key).filter fun k => !k == key a).eraseDups.flatMap
        (fun k => (a :: rest).filter fun b => key b = k) =
          ((rest.filter fun b => key b ≠ key a).map key).eraseDups.flatMap
            fun k => (rest.filter fun b => key b ≠ key a).filter fun b => key b = k := by
      have hkeys : (rest.map key).filter (fun k => !k == key a) =
          (rest.filter fun b => key b ≠ key a).map key := by
        rw [List.filter_map]
        congr 2
        funext b
        by_cases h : key b = key a <;> simp [h]
      rw [hkeys]
      apply List.flatMap_congr
      intro k hk
      obtain ⟨b, hb, rfl⟩ := List.mem_map.mp (List.mem_eraseDups.mp hk)
      have hne : key b ≠ key a := by simpa using (List.mem_filter.mp hb).2
      rw [filter_filter_ne key hne, List.filter_cons_of_neg (by simpa using hne.symm)]
    rw [List.map_cons, List.eraseDups_cons, List.flatMap_cons, hrest,
      List.filter_cons_of_pos (by simp), List.cons_append]
    refine List.Perm.cons a ((List.Perm.append_left _ ih).trans ?_)
    simpa using List.filter_append_perm (fun b => decide (key b = key a)) rest

end Firsts

theorem fold_map (f : β → α) (key : α → String) (start : α → σ) (step : σ → α → σ) (items : List β) :
    fold key start step (items.map f) =
      fold (fun b => key (f b)) (fun b => start (f b)) (fun state b => step state (f b)) items := by
  rw [fold, List.foldl_map]
  rfl

private theorem foldl_update_cons (key : α → String) (start : α → σ) (step : σ → α → σ) (k : String)
    (items : List α) (state : σ) (groups : List (String × σ)) :
    items.foldl (fun groups a => update (key a) (start a) (step · a) groups) ((k, state) :: groups) =
      (k, (items.filter fun b => key b = k).foldl step state) ::
        (items.filter fun b => key b ≠ k).foldl
          (fun groups a => update (key a) (start a) (step · a) groups) groups := by
  induction items generalizing state groups with
  | nil => rfl
  | cons a rest ih =>
    by_cases h : key a = k
    · simp [update, h, ih]
    · simp [update, h, Ne.symm h, ih]

/-- The state of a key is made from the first item and all items of that key, in order. -/
theorem fold_eq (key : α → String) (start : α → σ) (step : σ → α → σ) (items : List α) :
    fold key start step items = (firsts key items).map fun a =>
      (key a, (items.filter fun b => key b = key a).foldl step (start a)) := by
  induction items using groupInduction key with
  | nil => rfl
  | cons a rest ih =>
    have hhead : fold key start step (a :: rest) =
        (key a, (rest.filter fun b => key b = key a).foldl step (step (start a) a)) ::
          fold key start step (rest.filter fun b => key b ≠ key a) :=
      foldl_update_cons key start step (key a) rest _ []
    rw [hhead, ih, firsts_cons, List.map_cons, List.filter_cons_of_pos (by simp), List.foldl_cons]
    congr 1
    apply List.map_congr_left
    intro b hb
    have hne : key b ≠ key a := by simpa using (List.mem_filter.mp (mem_of_mem_firsts key hb)).2
    rw [filter_filter_ne key hne, List.filter_cons_of_neg (by simpa using hne.symm)]

end Tabulate.Groups
