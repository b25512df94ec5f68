import Mathlib.Data.List.Basic

/-! Items of a list by their positions, which count from its end if they are negative. -/
namespace Tabulate

/-- The place of a position in a list of so many items; a negative one counts from the end. -/
def placeOf (count : Nat) (position : Int) : Int := if 0 ≤ position then position else count + position

section Items
variable {α : Type}

def itemsAt (items : List α) (holds : Nat → Prop) [DecidablePred holds] : List α :=
  (items.zipIdx.filter fun (_, place) => holds place).map Prod.fst

private theorem filter_zipIdx_between (items : List α) (start low high : Nat) :
    ((items.zipIdx start).filter fun (_, place) => low ≤ place ∧ place < high).map Prod.fst =
      (items.drop (low - start)).take (high - max low start) := by
  induction items generalizing start with
  | nil => simp
  | cons item items ih =>
    rw [List.zipIdx_cons, List.filter_cons]
    rcases Nat.lt_or_ge start low with before | after
    · obtain ⟨skipped, hskipped⟩ : ∃ skipped, low - start = skipped + 1 := ⟨low - start - 1, by omega⟩
      have hnext : low - (start + 1) = skipped := by omega
      have hmax : max low (start + 1) = max low start := by omega
      have outside : ¬ (low ≤ start ∧ start < high) := by omega
      rw [if_neg (by simpa using outside), ih, hskipped, hnext, List.drop_succ_cons, hmax]
    · have hstart : low - start = 0 := by omega
      have hnext : low - (start + 1) = 0 := by omega
      rcases Nat.lt_or_ge start high with within | behind
      · have hcount : high - max low start = (high - max low (start + 1)) + 1 := by omega
        have inside : low ≤ start ∧ start < high := ⟨after, within⟩
        rw [if_pos (by simpa using inside), List.map_cons, ih, hstart, hnext, hcount, List.drop_zero,
          List.drop_zero, List.take_succ_cons]
      · have hcount : high - max low start = 0 := by omega
        have hmore : high - max low (start + 1) = 0 := by omega
        have outside : ¬ (low ≤ start ∧ start < high) := by omega
        rw [if_neg (by simpa using outside), ih, hcount, hmore, List.take_zero, List.take_zero]

/-- The items at the places of an interval. -/
theorem itemsAt_between (items : List α) (low high : Nat) :
    itemsAt items (fun place => low ≤ place ∧ place < high) = (items.drop low).take (high - low) := by
  simpa [itemsAt] using filter_zipIdx_between items 0 low high

/-- Only the places of the list matter. -/
theorem itemsAt_congr {items : List α} {holds other : Nat → Prop} [DecidablePred holds] [DecidablePred other]
    (h : ∀ place < items.length, holds place ↔ other place) : itemsAt items holds = itemsAt items other := by
  refine congrArg (List.map Prod.fst) (List.filter_congr ?_)
  rintro ⟨item, place⟩ mem
  have hplace : place < items.length := by simpa using List.snd_lt_of_mem_zipIdx mem
  simpa using h place hplace

/-- The item at a position, if the list reaches so far from the end that the position counts from. -/
def itemFrom? (items : List α) (position : Int) : Option α :=
  if h : 0 ≤ position ∧ position < items.length then some items[position.toNat]
  else if h : -items.length ≤ position ∧ position < 0 then some items[(items.length + position).toNat]
  else none

theorem itemFrom?_eq_placeOf (items : List α) (position : Int) :
    itemFrom? items position =
      if 0 ≤ placeOf items.length position then items[(placeOf items.length position).toNat]? else none := by
  unfold itemFrom? placeOf
  split_ifs with inside before <;> grind

/-- At most one item has the place of a position. -/
theorem itemsAt_placeOf (items : List α) (position : Int) :
    itemsAt items (fun place => placeOf items.length position = place) = (itemFrom? items position).toList := by
  rw [itemFrom?_eq_placeOf]
  generalize placeOf items.length position = place
  split
  next nonneg =>
    have hplace : itemsAt items (fun other => place = other) =
        itemsAt items fun other => place.toNat ≤ other ∧ other < place.toNat + 1 :=
      itemsAt_congr fun other _ => by omega
    rw [hplace, itemsAt_between, Nat.add_sub_cancel_left, List.take_one, List.head?_drop]
  next negative =>
    have hplace : itemsAt items (fun other => place = other) = itemsAt items fun other => 0 ≤ other ∧ other < 0 :=
      itemsAt_congr fun other _ => by omega
    rw [hplace, itemsAt_between]
    rfl

end Items

end Tabulate
