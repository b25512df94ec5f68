import Mathlib.Data.List.Chain
import Tabulate.Pipeline.Sort
import Tabulate.Proofs.Sorting
import Tabulate.Proofs.Value.Order

/-! Rows in the order of keys: the first key that tells two rows apart decides, a row without a value
comes last under a key, and rows that no key tells apart keep their order. Where the values under each
key stand in one order, sorting makes the only such list. -/
namespace Tabulate.Pipeline
open Value (Place UniformTexts eq_null_of_isNull sortOrder_swap sortOrder_eq_order)

def Direction.turn : Direction → Ordering → Ordering
  | ascending, order => order
  | descending, order => order.swap

namespace SortKey

def select (key : SortKey) (row : Value) : Value := (row.at? key.path).getD .null

/-- Whether a key puts one row before another one. A row without a value comes after all that have
one, and values stand in the order of sorting, in the direction of the key. -/
def Before (key : SortKey) (a b : Value) : Prop :=
  (key.select a).isNull = false ∧
    ((key.select b).isNull = true ∨ key.direction.turn ((key.select a).sortOrder (key.select b)) = .lt)

def Level (key : SortKey) (a b : Value) : Prop := ¬ key.Before a b ∧ ¬ key.Before b a

instance (key : SortKey) (a b : Value) : Decidable (key.Before a b) :=
  inferInstanceAs (Decidable (_ ∧ (_ ∨ _)))

instance (key : SortKey) (a b : Value) : Decidable (key.Level a b) :=
  inferInstanceAs (Decidable (_ ∧ _))

/-- Whether the values of rows under a key stand in one order: none is `nan`, and of the texts all
stand for numbers or none does. -/
def Orders (key : SortKey) (rows : List Value) : Prop :=
  .number .nan ∉ rows.map key.select ∧ UniformTexts (rows.map key.select)

end SortKey

/-- Whether the first of some keys that tells two rows apart puts the one before the other. -/
def Before : List SortKey → Value → Value → Prop
  | [], _, _ => False
  | key :: keys, a, b => key.Before a b ∨ key.Level a b ∧ Before keys a b

/-- Rows in the order of keys; those that no key tells apart stand in their first order. -/
structure IsStableSort (keys : List SortKey) (rows sorted : List Value) : Prop where
  perm : sorted.Perm rows
  ordered : sorted.IsChain fun a b => ¬ Before keys b a
  stable : ∀ a ∈ rows, sorted.filter (fun b => ∀ key ∈ keys, key.Level a b) =
    rows.filter fun b => ∀ key ∈ keys, key.Level a b

section Comparison

namespace SortKey
variable (key : SortKey) (a b : Value)

private theorem compareBy_eq : key.compareBy a b =
    (compare (key.select a).isNull (key.select b).isNull).then
      (if (key.select a).isNull then .eq
        else key.direction.turn ((key.select a).sortOrder (key.select b))) := by
  unfold compareBy
  rw [← select, ← select]
  dsimp only
  rw [sortOrder_swap (key.select a) (key.select b)]
  cases (key.select a).isNull <;> cases (key.select b).isNull <;> cases key.direction <;> rfl

private theorem turn_swap (direction : Direction) (order : Ordering) :
    direction.turn order.swap = (direction.turn order).swap := by
  cases direction <;> rfl

private theorem compareBy_swap : key.compareBy b a = (key.compareBy a b).swap := by
  rw [compareBy_eq, compareBy_eq, sortOrder_swap (key.select a) (key.select b), turn_swap]
  cases (key.select a).isNull <;> cases (key.select b).isNull <;> rfl

private theorem before_iff : key.Before a b ↔ key.compareBy a b = .lt := by
  rw [Before, compareBy_eq]
  cases (key.select a).isNull with
  | false =>
    cases (key.select b).isNull with
    | false => simp
    | true => exact iff_of_true ⟨rfl, .inl rfl⟩ rfl
  | true => cases (key.select b).isNull <;> simp

private theorem level_iff : key.Level a b ↔ key.compareBy a b = .eq := by
  rw [Level, before_iff, before_iff, compareBy_swap key a b]
  cases key.compareBy a b <;> simp

end SortKey

variable (keys : List SortKey) (a b : Value)

private theorem compareRecords_cons (key : SortKey) :
    compareRecords (key :: keys) a b = (key.compareBy a b).then (compareRecords keys a b) := rfl

private theorem compareRecords_swap : compareRecords keys b a = (compareRecords keys a b).swap := by
  induction keys with
  | nil => rfl
  | cons key keys ih =>
    rw [compareRecords_cons, compareRecords_cons, ih, key.compareBy_swap a b, Ordering.swap_then]

private theorem before_iff : Before keys a b ↔ compareRecords keys a b = .lt := by
  induction keys with
  | nil => simp [Before, compareRecords]
  | cons key keys ih =>
    rw [Before, key.before_iff, key.level_iff, ih, compareRecords_cons, Ordering.then_eq_lt]

instance : Decidable (Before keys a b) := decidable_of_iff _ (before_iff keys a b).symm

private theorem not_before_iff : ¬ Before keys b a ↔ compareRecords keys a b ≠ .gt := by
  rw [before_iff, compareRecords_swap keys a b]
  cases compareRecords keys a b <;> simp

private theorem level_iff : (∀ key ∈ keys, key.Level a b) ↔ compareRecords keys a b = .eq := by
  induction keys with
  | nil => simp [compareRecords]
  | cons key keys ih =>
    rw [List.forall_mem_cons, key.level_iff, ih, compareRecords_cons, Ordering.then_eq_eq]

end Comparison

section Places

private def directed : Direction → Place → Place → Ordering
  | .ascending => Place.order
  | .descending => fun p q => Place.order q p

private theorem turn_order (direction : Direction) (p q : Place) :
    direction.turn (Place.order p q) = directed direction p q := by
  cases direction with
  | ascending => rfl
  | descending => exact Std.OrientedCmp.eq_swap.symm

private instance (direction : Direction) : Std.TransCmp (directed direction) := by
  cases direction with
  | ascending => exact inferInstanceAs (Std.TransCmp Place.order)
  | descending => exact inferInstanceAs (Std.TransCmp fun p q => Place.order q p)

private def placeOrder (key : SortKey) : Value → Value → Ordering :=
  compareLex (compareOn fun row => (key.select row).isNull)
    fun a b => directed key.direction (key.select a).placeOf (key.select b).placeOf

private instance (key : SortKey) : Std.TransCmp (placeOrder key) := by
  have h : Std.TransCmp fun a b => directed key.direction (key.select a).placeOf (key.select b).placeOf :=
    { eq_swap := Std.OrientedCmp.eq_swap
      isLE_trans := Std.TransCmp.isLE_trans }
  exact inferInstanceAs (Std.TransCmp (compareLex _ _))

private def rowOrder (keys : List SortKey) : Value → Value → Ordering :=
  keys.foldr (fun key rest => compareLex (placeOrder key) rest) fun _ _ => .eq

private instance (keys : List SortKey) : Std.TransCmp (rowOrder keys) := by
  induction keys with
  | nil => exact { eq_swap := rfl, isLE_trans := fun _ _ => rfl }
  | cons key keys ih => exact inferInstanceAs (Std.TransCmp (compareLex (placeOrder key) (rowOrder keys)))

private theorem rowOrder_swap (keys : List SortKey) (a b : Value) :
    rowOrder keys b a = (rowOrder keys a b).swap := Std.OrientedCmp.eq_swap

variable {keys : List SortKey} {rows : List Value} {a b : Value}

private theorem compareBy_eq_placeOrder {key : SortKey} (h : key.Orders rows) (ha : a ∈ rows)
    (hb : b ∈ rows) : key.compareBy a b = placeOrder key a b := by
  have horder := sortOrder_eq_order h.1 h.2 (List.mem_map_of_mem ha) (List.mem_map_of_mem hb)
  rw [key.compareBy_eq, placeOrder, compareLex, compareOn, horder, turn_order]
  cases hnull : (key.select a).isNull with
  | false => rfl
  | true =>
    cases hnull' : (key.select b).isNull with
    | false => rfl
    | true =>
      rw [eq_null_of_isNull hnull, eq_null_of_isNull hnull']
      cases key.direction <;> rfl

private theorem compareRecords_eq_rowOrder (h : ∀ key ∈ keys, key.Orders rows) (ha : a ∈ rows)
    (hb : b ∈ rows) : compareRecords keys a b = rowOrder keys a b := by
  induction keys with
  | nil => rfl
  | cons key keys ih =>
    rw [List.forall_mem_cons] at h
    rw [compareRecords_cons, compareBy_eq_placeOrder h.1 ha hb, ih h.2]
    rfl

private theorem orderBy_eq (h : ∀ key ∈ keys, key.Orders rows) :
    orderBy keys rows = rows.mergeSort fun a b => (rowOrder keys a b).isLE := by
  have hsame : ∀ a ∈ rows, ∀ b ∈ rows,
      (rowOrder keys a b).isLE = (compareRecords keys (id a) (id b) != .gt) := by
    intro a ha b hb
    rw [id, id, compareRecords_eq_rowOrder h ha hb]
    cases rowOrder keys a b <;> rfl
  have hmap := List.map_mergeSort (r := fun a b => (rowOrder keys a b).isLE)
    (s := fun a b => compareRecords keys a b != .gt) hsame
  rw [List.map_id, List.map_id] at hmap
  exact hmap.symm

private theorem stablySorted_orderBy (h : ∀ key ∈ keys, key.Orders rows) :
    StablySorted (fun a b => (rowOrder keys a b).isLE) rows (orderBy keys rows) := by
  rw [orderBy_eq h]
  refine stablySorted_mergeSort (fun _ _ _ => Std.TransCmp.isLE_trans) (fun a b => ?_) rows
  rw [rowOrder_swap keys a b]
  cases rowOrder keys a b <;> rfl

private theorem notAfter_iff (h : ∀ key ∈ keys, key.Orders rows) (ha : a ∈ rows) (hb : b ∈ rows) :
    ¬ Before keys b a ↔ (rowOrder keys a b).isLE := by
  rw [not_before_iff, compareRecords_eq_rowOrder h ha hb, Ordering.isLE_iff_ne_gt]

private theorem decide_level (h : ∀ key ∈ keys, key.Orders rows) (ha : a ∈ rows) (hb : b ∈ rows) :
    decide (∀ key ∈ keys, key.Level a b) = ((rowOrder keys a b).isLE && (rowOrder keys b a).isLE) := by
  rw [Bool.eq_iff_iff, decide_eq_true_iff, level_iff, compareRecords_eq_rowOrder h ha hb,
    rowOrder_swap keys a b]
  cases rowOrder keys a b <;> decide

private theorem filter_level (h : ∀ key ∈ keys, key.Orders rows) (ha : a ∈ rows) {some : List Value}
    (hsome : ∀ b ∈ some, b ∈ rows) : (some.filter fun b => ∀ key ∈ keys, key.Level a b) =
      some.filter fun b => (rowOrder keys a b).isLE && (rowOrder keys b a).isLE :=
  List.filter_congr fun b hb => decide_level h ha (hsome b hb)

end Places

section Sorting
variable {keys : List SortKey} {rows : List Value} {a : Value}

private theorem mem_orderBy (h : a ∈ orderBy keys rows) : a ∈ rows :=
  (List.mergeSort_perm rows _).mem_iff.mp h

variable (h : ∀ key ∈ keys, key.Orders rows)
include h

private theorem pairwise_orderBy : (orderBy keys rows).Pairwise fun a b => ¬ Before keys b a :=
  (stablySorted_orderBy h).ordered.imp_of_mem fun ha hb hab =>
    (notAfter_iff h (mem_orderBy ha) (mem_orderBy hb)).mpr hab

private theorem isStableSort_orderBy : IsStableSort keys rows (orderBy keys rows) := by
  have hsorted := stablySorted_orderBy h
  refine ⟨hsorted.perm, (pairwise_orderBy h).isChain, fun a ha => ?_⟩
  rw [filter_level h ha fun _ => mem_orderBy, filter_level h ha fun _ hb => hb]
  exact hsorted.stable a

private theorem eq_orderBy {sorted : List Value} (hs : IsStableSort keys rows sorted) :
    sorted = orderBy keys rows := by
  have hsorted := stablySorted_orderBy h
  have hmem : ∀ b ∈ sorted, b ∈ rows := fun b => hs.perm.mem_iff.mp
  have hchain : sorted.IsChain fun a b => (rowOrder keys a b).isLE :=
    hs.ordered.imp_of_mem_imp fun a b ha hb hab => (notAfter_iff h (hmem a ha) (hmem b hb)).mp hab
  have : Trans (fun a b => (rowOrder keys a b).isLE = true) (fun a b => (rowOrder keys a b).isLE = true)
      fun a b => (rowOrder keys a b).isLE = true := ⟨Std.TransCmp.isLE_trans⟩
  refine eq_of_stable (fun a _ => Std.ReflCmp.isLE_rfl) (hs.perm.trans hsorted.perm.symm)
    (List.isChain_iff_pairwise.mp hchain) hsorted.ordered fun a ha => ?_
  rw [hsorted.stable a, ← filter_level h (hmem a ha) hmem, hs.stable a (hmem a ha),
    filter_level h (hmem a ha) fun _ hb => hb]

end Sorting

/-- Where the values of rows under each key stand in one order, the rows have one stable sort by the
keys, and sorting makes it. No row comes before one that stands anywhere in front of it. -/
theorem orderBy_isStableSort (keys : List SortKey) (rows : List Value)
    (orders : ∀ key ∈ keys, key.Orders rows) :
    (∀ sorted, IsStableSort keys rows sorted ↔ sorted = orderBy keys rows) ∧
      (orderBy keys rows).Pairwise fun a b => ¬ Before keys b a := by
  refine ⟨fun sorted => ⟨eq_orderBy orders, ?_⟩, pairwise_orderBy orders⟩
  rintro rfl
  exact isStableSort_orderBy orders

def fruitKeys : List SortKey :=
  [⟨[.key "price"], .descending⟩, ⟨[.key "plant"], .ascending⟩]

def fruit : Fin 4 → Value
  | 0 => .object [("name", .string "pear"), ("plant", .string "tree")]
  | 1 => .object [("name", .string "fig"), ("plant", .string "tree"), ("price", .number 9)]
  | 2 => .object [("name", .string "date"), ("plant", .string "palm"), ("price", .string "1,000")]
  | 3 => .object [("name", .string "apple"), ("plant", .string "tree"), ("price", .number 9)]

theorem orderBy_isStableSort_fruit :
    (∀ key ∈ fruitKeys, key.Orders ([0, 1, 2, 3].map fruit)) ∧
      orderBy fruitKeys ([0, 1, 2, 3].map fruit) = [2, 1, 3, 0].map fruit := by
  have orders : ∀ key ∈ fruitKeys, key.Orders ([0, 1, 2, 3].map fruit) := by
    rw [fruitKeys, List.forall_mem_cons, List.forall_mem_singleton]
    have prices : ([0, 1, 2, 3].map fruit).map (SortKey.select ⟨[.key "price"], .descending⟩) =
        [.null, .number 9, .string "1,000", .number 9] := rfl
    have plants : ([0, 1, 2, 3].map fruit).map (SortKey.select ⟨[.key "plant"], .ascending⟩) =
        [.string "tree", .string "tree", .string "palm", .string "tree"] := rfl
    rw [SortKey.Orders, SortKey.Orders, prices, plants]
    refine ⟨⟨?_, .inl ?_⟩, ⟨by simp, .inr ?_⟩⟩
    · simp only [List.mem_cons, reduceCtorEq, Value.number.injEq, List.not_mem_nil, or_false, false_or,
        or_self]
      decide +kernel
    · simp only [List.mem_cons, reduceCtorEq, Value.string.injEq, List.not_mem_nil, or_self, or_false,
        false_or, forall_eq]
      decide +kernel
    · simp only [List.mem_cons, Value.string.injEq, List.not_mem_nil, or_false, or_self_left,
        forall_eq_or_imp, forall_eq]
      decide +kernel
  refine ⟨orders, (((orderBy_isStableSort fruitKeys _ orders).1 _).mp ⟨?_, ?_, ?_⟩).symm⟩
  · exact List.Perm.map fruit (by decide)
  · rw [List.isChain_map]
    decide +kernel
  · intro a ha
    obtain ⟨i, -, rfl⟩ := List.mem_map.mp ha
    clear ha
    rw [List.filter_map, List.filter_map]
    refine congrArg (List.map fruit) ?_
    revert i
    decide +kernel

end Tabulate.Pipeline
