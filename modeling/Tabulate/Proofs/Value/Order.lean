import Mathlib.Order.Compare
import Mathlib.Tactic.SplitIfs
import Tabulate.Value.Order

/-! Sorting puts each value at a place of one linear order, as long as no text that stands for
a number meets a text that stands for none. Where they meet, sorting may run in a circle. -/
namespace Tabulate

namespace Number

theorem compare?_swap (a b : Number) : b.compare? a = (a.compare? b).map Ordering.swap := by
  unfold compare?
  cases a.place with
  | none => cases b.place <;> rfl
  | some i =>
    cases b.place with
    | none => rfl
    | some j => exact congrArg some Std.OrientedCmp.eq_swap

private theorem isFinite_of_finite? {text : List Char} {n : Number} (h : finite? text = some n) : n.isFinite :=
  (Option.filter_eq_some_iff.mp h).2

/-- A text never stands for `nan`. -/
theorem ne_nan_of_ofText? {text : String} {n : Number} (h : ofText? text = some n) : n ≠ nan := by
  rintro rfl
  simp only [ofText?] at h
  split at h
  next found =>
    cases h
    exact Bool.false_ne_true (isFinite_of_finite? found)
  next =>
    split_ifs at h
    exact Bool.false_ne_true (isFinite_of_finite? h)

private theorem compare?_eq_some {a b : Number} (ha : a ≠ nan) (hb : b ≠ nan) :
    a.compare? b = some (compare (a.place.getD 0) (b.place.getD 0)) := by
  cases a with
  | nan => exact absurd rfl ha
  | infinite | finite =>
    cases b with
    | nan => exact absurd rfl hb
    | infinite | finite => rfl

end Number

namespace Value

theorem compare?_swap (a b : Value) : b.compare? a = (a.compare? b).map Ordering.swap := by
  cases a <;> cases b <;> try rfl
  case bool.bool => exact congrArg some Std.OrientedCmp.eq_swap
  case number.number m n => exact m.compare?_swap n
  case number.string m s =>
    simp only [compare?]
    cases Number.ofText? s with
    | none => rfl
    | some n => exact m.compare?_swap n
  case string.number s n =>
    simp only [compare?]
    cases Number.ofText? s with
    | none => rfl
    | some m => exact m.compare?_swap n
  case string.string => exact congrArg some Std.OrientedCmp.eq_swap

section Nulls
variable {a b : Value}

theorem eq_null_of_isNull (h : a.isNull = true) : a = null := by
  cases a with
  | null => rfl
  | _ => contradiction

/-- Null has no order with a value other than null. -/
theorem compare?_of_isNull (h : a.isNull = true ∨ b.isNull = true) (other : a.isNull = false ∨ b.isNull = false) :
    a.compare? b = none := by
  cases a with
  | null =>
    cases b with
    | null => exact other.elim nofun nofun
    | _ => rfl
  | _ =>
    cases b with
    | null => rfl
    | _ => exact h.elim nofun nofun

/-- An order with null is that of null with itself. -/
theorem compare?_null (h : a.isNull = true ∨ b.isNull = true) :
    a.compare? b = none ∨ a.compare? b = some .eq := by
  by_cases other : a.isNull = false ∨ b.isNull = false
  · exact .inl (compare?_of_isNull h other)
  · cases a with
    | null =>
      cases b with
      | null => exact .inr rfl
      | _ => exact absurd (.inr rfl) other
    | _ => exact absurd (.inl rfl) other

end Nulls

private def textOrder (s t : String) : Ordering :=
  match Number.ofText? s, Number.ofText? t with
  | some m, some n => (m.compare? n).getD .eq
  | _, _ => compare s t

private def kindOrder (a b : Value) : Ordering :=
  match a.compare? b with
  | some order => order
  | none => (compare a.kindRank b.kindRank).then (compare a.json b.json)

private theorem sortOrder_cases (a b : Value) :
    (∃ s t, a = string s ∧ b = string t) ∨ sortOrder a b = kindOrder a b := by
  unfold sortOrder
  split
  next => exact .inr rfl
  next h =>
    refine .inr ?_
    cases b with
    | null => exact absurd rfl h
    | _ => rfl
  next h =>
    refine .inr ?_
    cases a with
    | null => exact absurd rfl h
    | _ => rfl
  next s t => exact .inl ⟨s, t, rfl, rfl⟩
  next => exact .inr rfl

private theorem textOrder_swap (s t : String) : textOrder t s = (textOrder s t).swap := by
  unfold textOrder
  cases Number.ofText? s with
  | none => cases Number.ofText? t <;> exact Std.OrientedOrd.eq_swap
  | some m =>
    cases Number.ofText? t with
    | none => exact Std.OrientedOrd.eq_swap
    | some n =>
      simp only [m.compare?_swap n]
      cases m.compare? n <;> rfl

private theorem kindOrder_swap (a b : Value) : kindOrder b a = (kindOrder a b).swap := by
  unfold kindOrder
  rw [compare?_swap a b]
  cases a.compare? b with
  | some order => rfl
  | none =>
    rw [Option.map_none, Ordering.swap_then]
    exact congrArg₂ Ordering.then Std.OrientedCmp.eq_swap Std.OrientedCmp.eq_swap

/-- The order of two values is the reverse of their order from the other side. -/
theorem sortOrder_swap (a b : Value) : sortOrder b a = (sortOrder a b).swap := by
  rcases sortOrder_cases a b with ⟨s, t, rfl, rfl⟩ | hab
  · exact textOrder_swap s t
  rcases sortOrder_cases b a with ⟨s, t, rfl, rfl⟩ | hba
  · exact textOrder_swap t s
  rw [hab, hba, kindOrder_swap]

/-- A place in the order of sorting: a rank, then a number, then a text. -/
structure Place where
  rank : Nat
  number : Int
  text : String

namespace Place

def order : Place → Place → Ordering :=
  compareLex (compareOn Place.rank) (compareLex (compareOn Place.number) (compareOn Place.text))

instance : Std.TransCmp order :=
  inferInstanceAs (Std.TransCmp (compareLex _ (compareLex _ _)))

private theorem order_of_rank_lt {p q : Place} (h : p.rank < q.rank) : order p q = .lt := by
  simp [order, compareLex, compareOn, Nat.compare_eq_lt.mpr h]

@[simp] theorem order_number (rank : Nat) (i j : Int) (text : String) :
    order ⟨rank, i, text⟩ ⟨rank, j, text⟩ = compare i j := by
  simp [order, compareLex, compareOn]

@[simp] theorem order_text (rank : Nat) (i : Int) (s t : String) :
    order ⟨rank, i, s⟩ ⟨rank, i, t⟩ = compare s t := by
  simp [order, compareLex, compareOn]

end Place

/-- The place of a value. A text that stands for a number has the place of that number. -/
def placeOf : Value → Place
  | number n => ⟨0, n.place.getD 0, ""⟩
  | string s =>
    match Number.ofText? s with
    | some n => ⟨0, n.place.getD 0, ""⟩
    | none => ⟨1, 0, s⟩
  | bool b => ⟨2, if b then 1 else 0, ""⟩
  | array items => ⟨3, 0, (array items).json⟩
  | object fields => ⟨4, 0, (object fields).json⟩
  | null => ⟨5, 0, ""⟩

private theorem rank_placeOf_le (a : Value) : a.placeOf.rank ≤ a.kindRank := by
  -- texts that stand for numbers go up to them; all other values keep to their kind
  cases a with
  | string s =>
    simp only [placeOf]
    cases Number.ofText? s with
    | none => exact Nat.le_refl 1
    | some n => exact Nat.zero_le 1
  | _ => exact Nat.le_refl _

private theorem rank_placeOf {a : Value} (h : 2 ≤ a.kindRank) : a.placeOf.rank = a.kindRank := by
  cases a with
  | string s => simp [kindRank] at h
  | _ => rfl

private theorem sortOrder_of_lt {a b : Value} (h : a.kindRank < b.kindRank) (hb : 2 ≤ b.kindRank) :
    sortOrder a b = .lt := by
  have apart : a.compare? b = none := by
    cases b with
    | number | string => simp [kindRank] at hb
    | null | bool | array | object => cases a <;> first | rfl | simp [kindRank] at h
  rcases sortOrder_cases a b with ⟨s, t, rfl, rfl⟩ | hab
  · exact absurd h (Nat.lt_irrefl _)
  · rw [hab, kindOrder, apart, Nat.compare_eq_lt.mpr h]
    rfl

/-- Whether all texts among some values stand for numbers, or none does. -/
def UniformTexts (values : List Value) : Prop :=
  (∀ s, string s ∈ values → (Number.ofText? s).isSome) ∨
    ∀ s, string s ∈ values → Number.ofText? s = none

private theorem textOrder_eq_order {s t : String}
    (alike : (Number.ofText? s).isSome = (Number.ofText? t).isSome) :
    textOrder s t = Place.order (placeOf (string s)) (placeOf (string t)) := by
  simp only [textOrder, placeOf]
  cases hs : Number.ofText? s with
  | none =>
    cases ht : Number.ofText? t with
    | none => exact (Place.order_text 1 0 s t).symm
    | some n => simp [hs, ht] at alike
  | some m =>
    cases ht : Number.ofText? t with
    | none => simp [hs, ht] at alike
    | some n =>
      simp [Number.compare?_eq_some (Number.ne_nan_of_ofText? hs) (Number.ne_nan_of_ofText? ht)]

private theorem sortOrder_number_string {m : Number} (hm : m ≠ .nan) (s : String) :
    sortOrder (number m) (string s) = Place.order (placeOf (number m)) (placeOf (string s)) := by
  simp only [sortOrder, compare?, placeOf]
  cases hs : Number.ofText? s with
  | none => rfl
  | some n => simp [Number.compare?_eq_some hm (Number.ne_nan_of_ofText? hs)]

section Places
variable {values : List Value} {a b : Value}

private theorem sortOrder_eq_order_of_lt (noNaN : number .nan ∉ values) (ha : a ∈ values)
    (h : a.kindRank < b.kindRank) : sortOrder a b = Place.order a.placeOf b.placeOf := by
  by_cases hb : 2 ≤ b.kindRank
  · rw [sortOrder_of_lt h hb, Place.order_of_rank_lt]
    rw [rank_placeOf hb]
    exact Nat.lt_of_le_of_lt (rank_placeOf_le a) h
  · cases b with
    | string s =>
      cases a with
      | number m => exact sortOrder_number_string (fun hm => noNaN (hm ▸ ha)) s
      | _ => simp [kindRank] at h
    | number => simp [kindRank] at h
    | _ => simp [kindRank] at hb

private theorem sortOrder_eq_order_of_eq (noNaN : number .nan ∉ values) (uniform : UniformTexts values)
    (ha : a ∈ values) (hb : b ∈ values) (h : a.kindRank = b.kindRank) :
    sortOrder a b = Place.order a.placeOf b.placeOf := by
  cases a <;> cases b <;> try (simp [kindRank] at h; done)
  case null.null => rfl
  case bool.bool x y => cases x <;> cases y <;> rfl
  case number.number m n =>
    have hm : m ≠ .nan := fun h => noNaN (h ▸ ha)
    have hn : n ≠ .nan := fun h => noNaN (h ▸ hb)
    simp [sortOrder, compare?, placeOf, Number.compare?_eq_some hm hn]
  case string.string s t =>
    refine textOrder_eq_order ?_
    rcases uniform with all | none
    · rw [all s ha, all t hb]
    · rw [none s ha, none t hb]
  case array.array xs ys => simp [sortOrder, compare?, placeOf, kindRank]
  case object.object xs ys => simp [sortOrder, compare?, placeOf, kindRank]

/-- Sorting goes by the places of values. -/
theorem sortOrder_eq_order (noNaN : number .nan ∉ values) (uniform : UniformTexts values)
    (ha : a ∈ values) (hb : b ∈ values) : sortOrder a b = Place.order a.placeOf b.placeOf := by
  rcases Nat.lt_trichotomy a.kindRank b.kindRank with h | h | h
  · exact sortOrder_eq_order_of_lt noNaN ha h
  · exact sortOrder_eq_order_of_eq noNaN uniform ha hb h
  · rw [sortOrder_swap b a, sortOrder_eq_order_of_lt noNaN hb h]
    exact Std.OrientedCmp.eq_swap.symm

end Places

/-- The order of two values is always the reverse of their order from the other side. It is
transitive on values without `nan` all of whose texts stand for numbers, or none of whose texts does. -/
theorem sortOrder_isPreorder (a b c : Value) :
    sortOrder b a = (sortOrder a b).swap ∧
      (number .nan ∉ [a, b, c] → UniformTexts [a, b, c] →
        sortOrder a b ≠ .gt → sortOrder b c ≠ .gt → sortOrder a c ≠ .gt) := by
  refine ⟨sortOrder_swap a b, fun noNaN uniform hab hbc => ?_⟩
  rw [sortOrder_eq_order noNaN uniform (by simp) (by simp)] at hab hbc ⊢
  rw [ne_eq, ← Ordering.isLE_iff_ne_gt] at hab hbc ⊢
  exact Std.TransCmp.isLE_trans hab hbc

theorem sortOrder_isPreorder_prices :
    number .nan ∉ [string "9", string "1,000", number 1000] ∧
      UniformTexts [string "9", string "1,000", number 1000] ∧
      sortOrder (string "9") (string "1,000") = .lt ∧ sortOrder (string "1,000") (number 1000) = .eq ∧
      sortOrder (string "1,000") (string "9") = .gt ∧ sortOrder (string "9") (number 1000) ≠ .gt := by
  have noNaN : number .nan ∉ [string "9", string "1,000", number 1000] := by
    simp only [List.mem_cons, number.injEq, reduceCtorEq, List.not_mem_nil, or_false, false_or]
    decide +kernel
  have uniform : UniformTexts [string "9", string "1,000", number 1000] := by
    refine .inl fun s hs => ?_
    simp only [List.mem_cons, string.injEq, reduceCtorEq, List.not_mem_nil, or_false] at hs
    rcases hs with rfl | rfl <;> decide +kernel
  have hless : sortOrder (string "9") (string "1,000") = .lt := by decide +kernel
  have hequal : sortOrder (string "1,000") (number 1000) = .eq := by decide +kernel
  obtain ⟨hswap, htrans⟩ := sortOrder_isPreorder (string "9") (string "1,000") (number 1000)
  refine ⟨noNaN, uniform, hless, hequal, ?_, htrans noNaN uniform ?_ ?_⟩
  · rw [hswap, hless]
    rfl
  · rw [hless]
    decide
  · rw [hequal]
    decide

/-- Sorting is no preorder on all texts: one that stands for no number may come after a number of
two digits and before one of a single digit. -/
theorem sortOrder_circle :
    sortOrder (string "9") (string "10") = .lt ∧ sortOrder (string "10") (string "1a") = .lt ∧
      sortOrder (string "9") (string "1a") = .gt := by
  decide +kernel

end Value
end Tabulate
