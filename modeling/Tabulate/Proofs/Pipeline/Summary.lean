import Mathlib.Algebra.GroupWithZero.Nat
import Mathlib.Data.List.Induction
import Mathlib.Tactic.SplitIfs
import Tabulate.Pipeline.Aggregate
import Tabulate.Proofs.Grouping
import Tabulate.Proofs.Value.Fields

/-! Summarizing in one pass over the rows is grouping them first and folding each group after. -/
namespace Tabulate

namespace Pipeline

def foldFirst {α : Type} (f : α → α → α) : List α → Option α
  | [] => none
  | a :: rest => some (rest.foldl f a)

def numbersOf (values : List Value) : List Number := values.filterMap Value.toNumber?

namespace AggregateFunction

/-- What a function makes of values none of which is null. -/
def ofValues (values : List Value) : AggregateFunction → Value
  | count => Value.ofNat values.length
  | sum => .number ((numbersOf values).foldl Number.add 0)
  | mean =>
    if (numbersOf values).isEmpty then .null
    else .number (((numbersOf values).foldl Number.add 0).div (Number.ofNat (numbersOf values).length))
  | min => ((foldFirst Number.min (numbersOf values)).map Value.number).getD .null
  | max => ((foldFirst Number.max (numbersOf values)).map Value.number).getD .null
  | distinctCount => Value.ofNat (values.map Value.groupKey).eraseDups.length
  | first => values.head?.getD .null
  | last => values.getLast?.getD .null

end AggregateFunction

/-- The aggregate of the rows of one group. Without an argument it is their number. -/
def Aggregate.ofGroup (a : Aggregate) (rows : List Value) : Value :=
  match a.argument with
  | none => Value.ofNat rows.length
  | some e => a.function.ofValues ((rows.map e.eval).filter fun v => !v.isNull)

/-- The rows of each group, in order of first appearance. Without fields, no rows still are one. -/
def groupsOf (fields : List String) (rows : List Value) : List (List Value) :=
  if rows.isEmpty && fields.isEmpty then [[]]
  else (rows.map (Group.keyOf fields)).eraseDups.map fun key =>
    rows.filter fun row => Group.keyOf fields row = key

/-- The record of the rows of a group: the fields of the first row, then the aggregates. -/
def recordOf (aggregates : List Aggregate) (fields : List String) (rows : List Value) : Value :=
  .object <| fields.map (fun field => (field, (rows.head?.getD .null).resolve field)) ++
    aggregates.map fun a => (a.name, a.ofGroup rows)

namespace Accumulator

private theorem foldl_count (values : List Value) (n : Nat) :
    values.foldl (fun acc v => take v acc) (count n) = count (n + values.length) := by
  induction values generalizing n with
  | nil => rfl
  | cons v rest ih =>
    rw [List.foldl_cons, take, ih, List.length_cons, Nat.add_assoc, Nat.add_comm 1]

private theorem foldl_numbers {σ : Type} (make : σ → Accumulator) (step : σ → Number → σ)
    (h : ∀ s v, take v (make s) = make ((v.toNumber?.map (step s)).getD s)) (values : List Value) (s : σ) :
    values.foldl (fun acc v => take v acc) (make s) = make ((numbersOf values).foldl step s) := by
  induction values generalizing s with
  | nil => rfl
  | cons v rest ih =>
    rw [List.foldl_cons, h, ih, numbersOf, numbersOf, List.filterMap_cons]
    cases v.toNumber? <;> rfl

private theorem foldl_sum (values : List Value) (total : Number) :
    values.foldl (fun acc v => take v acc) (sum total) = sum ((numbersOf values).foldl Number.add total) :=
  foldl_numbers sum Number.add (fun _ _ => rfl) values total

private theorem foldl_mean (values : List Value) (total : Number) :
    values.foldl (fun acc v => take v acc) (mean total 0) =
      mean ((numbersOf values).foldl Number.add total) (numbersOf values).length := by
  have hpair (numbers : List Number) (total : Number) (n : Nat) :
      numbers.foldl (fun (s : Number × Nat) x => (s.1.add x, s.2 + 1)) (total, n) =
        (numbers.foldl Number.add total, n + numbers.length) := by
    induction numbers generalizing total n with
    | nil => rfl
    | cons x rest ih =>
      rw [List.foldl_cons, ih, List.foldl_cons, List.length_cons, Nat.add_assoc, Nat.add_comm 1]
  have h := foldl_numbers (fun s : Number × Nat => mean s.1 s.2) (fun s x => (s.1.add x, s.2 + 1))
    (fun s v => by simp only [take]; cases v.toNumber? <;> rfl) values (total, 0)
  simpa only [hpair, Nat.zero_add] using h

private theorem foldl_foldFirst (f : Number → Number → Number) (numbers : List Number) :
    numbers.foldl (fun s x => some ((s.map (f · x)).getD x)) none = foldFirst f numbers := by
  have hsome (numbers : List Number) (n : Number) :
      numbers.foldl (fun s x => some ((s.map (f · x)).getD x)) (some n) = some (numbers.foldl f n) := by
    induction numbers generalizing n with
    | nil => rfl
    | cons x rest ih => exact ih (f n x)
  cases numbers with
  | nil => rfl
  | cons x rest => exact hsome rest x

private theorem foldl_min (values : List Value) :
    values.foldl (fun acc v => take v acc) (min none) = min (foldFirst Number.min (numbersOf values)) := by
  rw [← foldl_foldFirst]
  exact foldl_numbers min _ (fun s v => by simp only [take]; cases v.toNumber? <;> rfl) values none

private theorem foldl_max (values : List Value) :
    values.foldl (fun acc v => take v acc) (max none) = max (foldFirst Number.max (numbersOf values)) := by
  rw [← foldl_foldFirst]
  exact foldl_numbers max _ (fun s v => by simp only [take]; cases v.toNumber? <;> rfl) values none

private theorem foldl_distinct (values : List Value) :
    values.foldl (fun acc v => take v acc) (distinct []) =
      distinct (values.map Value.groupKey).eraseDups.reverse := by
  induction values using List.reverseRecOn with
  | nil => rfl
  | append_singleton values v ih =>
    rw [List.foldl_append, ih, List.map_append, List.map_singleton, Groups.eraseDups_append_singleton]
    by_cases h : v.groupKey ∈ values.map Value.groupKey
    · simp [take, List.mem_map.mp h]
    · simp [take, List.mem_map.not.mp h]

private theorem foldl_first_some (values : List Value) (v : Value) :
    values.foldl (fun acc v => take v acc) (first (some v)) = first (some v) := by
  induction values with
  | nil => rfl
  | cons w rest ih => exact ih

private theorem foldl_first (values : List Value) :
    values.foldl (fun acc v => take v acc) (first none) = first values.head? := by
  cases values with
  | nil => rfl
  | cons v rest => exact foldl_first_some rest v

private theorem foldl_last (values : List Value) (value? : Option Value) :
    values.foldl (fun acc v => take v acc) (last value?) = last (values.getLast?.or value?) := by
  induction values generalizing value? with
  | nil => rfl
  | cons v rest ih =>
    rw [List.foldl_cons, take, ih, List.getLast?_cons]
    cases rest.getLast? <;> rfl

/-- One accumulator, run over values and finished, is the function of those values. -/
theorem finish_foldl_take (f : AggregateFunction) (values : List Value) :
    (values.foldl (fun acc v => take v acc) (start f)).finish = f.ofValues values := by
  cases f with
  | count => simp [start, foldl_count, finish, AggregateFunction.ofValues]
  | sum => simp [start, foldl_sum, finish, AggregateFunction.ofValues]
  | mean => simp [start, foldl_mean, finish, AggregateFunction.ofValues]
  | min => simp [start, foldl_min, finish, AggregateFunction.ofValues]
  | max => simp [start, foldl_max, finish, AggregateFunction.ofValues]
  | distinctCount => simp [start, foldl_distinct, finish, AggregateFunction.ofValues]
  | first => simp [start, foldl_first, finish, AggregateFunction.ofValues]
  | last => simp [start, foldl_last, finish, AggregateFunction.ofValues]

private theorem foldl_update_some (e : Expr) (rows : List Value) (acc : Accumulator) :
    rows.foldl (fun acc row => update acc (some (e.eval row))) acc =
      ((rows.map e.eval).filter fun v => !v.isNull).foldl (fun acc v => take v acc) acc := by
  induction rows generalizing acc with
  | nil => rfl
  | cons row rest ih =>
    rw [List.foldl_cons, ih, List.map_cons]
    cases h : e.eval row <;> simp [update, Value.isNull]

private theorem foldl_update_none (rows : List Value) (n : Nat) :
    rows.foldl (fun acc _ => update acc none) (count n) = count (n + rows.length) := by
  induction rows generalizing n with
  | nil => rfl
  | cons row rest ih =>
    rw [List.foldl_cons, update, ih, List.length_cons, Nat.add_assoc, Nat.add_comm 1]

/-- The accumulator of an aggregate, run over the rows of a group, ends in its value. -/
theorem finish_foldl_update (a : Aggregate) (h : a.argument = none → a.function = .count)
    (rows : List Value) :
    (rows.foldl (fun acc row => update acc (a.argument.map (·.eval row))) (start a.function)).finish =
      a.ofGroup rows := by
  unfold Aggregate.ofGroup
  cases harg : a.argument with
  | none =>
    rw [h harg]
    simp only [Option.map_none, start, foldl_update_none, finish, Nat.zero_add]
  | some e =>
    simp only [Option.map_some, foldl_update_some, finish_foldl_take]

end Accumulator

namespace Group

private theorem map_zip_map {α β γ : Type} (f : α × β → γ) (g : α → β) (items : List α) :
    (items.zip (items.map g)).map f = items.map fun a => f (a, g a) := by
  have h : items.zip (items.map g) = items.map fun a => (a, g a) := by
    simpa using List.zip_map' (f := id) (g := g) (l := items)
  rw [h, List.map_map]
  rfl

/-- Each aggregate of a group has a state of its own. -/
theorem foldl_takeRow (aggregates : List Aggregate) (values rows : List Value) :
    rows.foldl (takeRow aggregates) (empty aggregates values) =
      ⟨values, aggregates.map fun a =>
        rows.foldl (fun acc row => acc.update (a.argument.map (·.eval row)))
          (Accumulator.start a.function)⟩ := by
  induction rows using List.reverseRecOn with
  | nil => rfl
  | append_singleton rows row ih =>
    simp only [List.foldl_append, ih, List.foldl_cons, List.foldl_nil, takeRow, map_zip_map]

/-- Fields and aggregates are put together as the record, in order. -/
theorem record_foldl_takeRow_ofList (aggregates : List Aggregate) (fields : List String)
    (hArgument : ∀ a ∈ aggregates, a.argument = none → a.function = .count) (first : Value) (rows : List Value) :
    record aggregates fields (rows.foldl (takeRow aggregates) (empty aggregates (valuesOf fields first))) =
      .object (Fields.ofList (fields.map (fun field => (field, first.resolve field)) ++
        aggregates.map fun a => (a.name, a.ofGroup rows))) := by
  have hvalues : fields.zip (valuesOf fields first) =
      fields.map fun field => (field, first.resolve field) := by
    have h := map_zip_map id first.resolve fields
    rwa [List.map_id] at h
  have hstates : aggregates.map (fun a => (a.name, (rows.foldl
      (fun acc row => acc.update (a.argument.map (·.eval row))) (Accumulator.start a.function)).finish)) =
        aggregates.map fun a => (a.name, a.ofGroup rows) := by
    apply List.map_congr_left
    intro a ha
    rw [Accumulator.finish_foldl_update a (hArgument a ha)]
  rw [record, foldl_takeRow, hvalues, map_zip_map, hstates]

/-- Fields and aggregates with distinct names are the columns of the record, in order. -/
theorem record_foldl_takeRow (aggregates : List Aggregate) (fields : List String)
    (hArgument : ∀ a ∈ aggregates, a.argument = none → a.function = .count)
    (distinct : (fields ++ aggregates.map (·.name)).Nodup) (first : Value) (rows : List Value) :
    record aggregates fields (rows.foldl (takeRow aggregates) (empty aggregates (valuesOf fields first))) =
      .object (fields.map (fun field => (field, first.resolve field)) ++
        aggregates.map fun a => (a.name, a.ofGroup rows)) := by
  rw [record_foldl_takeRow_ofList aggregates fields hArgument, Fields.ofList_eq_self]
  simpa [Function.comp_def] using distinct

end Group

private theorem ofRows_eq (aggregates : List Aggregate) (fields : List String) (rows : List Value) :
    Group.ofRows aggregates fields rows = (Groups.firsts (Group.keyOf fields) rows).map fun first =>
      (rows.filter fun row => Group.keyOf fields row = Group.keyOf fields first).foldl
        (Group.takeRow aggregates) (Group.empty aggregates (Group.valuesOf fields first)) := by
  rw [Group.ofRows, Groups.fold_eq, List.map_map]
  rfl

private theorem sum_length_groupsOf (fields : List String) (rows : List Value) :
    ((groupsOf fields rows).map List.length).sum = rows.length := by
  have h := (Groups.perm_flatMap_filter (Group.keyOf fields) rows).length_eq
  rw [List.length_flatMap] at h
  unfold groupsOf
  split_ifs with none
  · simp only [Bool.and_eq_true, List.isEmpty_iff] at none
    rw [none.1]
    rfl
  · rw [List.map_map]
    exact h

/-- One pass over the rows makes the records of the groups, which hold each row once. -/
theorem summarize_eq_map_recordOf (aggregates : List Aggregate) (fields : List String) (rows : List Value)
    (hArgument : ∀ a ∈ aggregates, a.argument = none → a.function = .count)
    (distinct : (fields ++ aggregates.map (·.name)).Nodup) :
    summarize aggregates fields rows = (groupsOf fields rows).map (recordOf aggregates fields) ∧
      ((groupsOf fields rows).map List.length).sum = rows.length := by
  refine ⟨?_, sum_length_groupsOf fields rows⟩
  have hrecord := Group.record_foldl_takeRow aggregates fields hArgument distinct
  unfold summarize groupsOf
  simp only [ofRows_eq, ← Groups.map_firsts, List.map_map]
  cases rows with
  | nil =>
    cases fields with
    | nil => exact congrArg (fun v => [v]) (hrecord .null [])
    | cons field fields => rfl
  | cons row rest =>
    rw [if_neg (by simp [Groups.firsts_cons]), if_neg (by simp), List.map_map, List.map_map]
    apply List.map_congr_left
    intro first hFirst
    have hHead := Groups.head?_filter_firsts (Group.keyOf fields) hFirst
    simp only [Function.comp_apply, hrecord, recordOf, hHead, Option.getD_some]

def sale : Fin 3 → Value
  | 0 => .object [("city", .string "Oslo"), ("sold", .ofNat 2)]
  | 1 => .object [("city", .null), ("sold", .string "none")]
  | 2 => .object [("city", .string "Oslo"), ("sold", .ofNat 3)]

def citySales : List Value := [sale 0, sale 1, sale 2]

def saleAggregates : List Aggregate :=
  [⟨"sales", .count, none⟩, ⟨"total", .sum, some (.field "sold")⟩]

theorem summarize_eq_map_recordOf_citySales :
    (∀ a ∈ saleAggregates, a.argument = none → a.function = .count) ∧
      (["city"] ++ saleAggregates.map (·.name)).Nodup ∧
      summarize saleAggregates ["city"] citySales =
        (groupsOf ["city"] citySales).map (recordOf saleAggregates ["city"]) ∧
      (groupsOf ["city"] citySales).map List.length = [2, 1] ∧
      summarize saleAggregates ["city"] citySales =
        [.object [("city", .string "Oslo"), ("sales", .ofNat 2), ("total", .ofNat 5)],
          .object [("city", .null), ("sales", .ofNat 1), ("total", .ofNat 0)]] := by
  have hArgument : ∀ a ∈ saleAggregates, a.argument = none → a.function = .count := by
    simp [saleAggregates]
  have distinct : (["city"] ++ saleAggregates.map (·.name)).Nodup := by decide
  have hRecords := (summarize_eq_map_recordOf saleAggregates ["city"] citySales hArgument distinct).1
  have hGroups : groupsOf ["city"] citySales = [[sale 0, sale 2], [sale 1]] := rfl
  refine ⟨hArgument, distinct, hRecords, by rw [hGroups]; rfl, ?_⟩
  have hSold : numbersOf (([sale 0, sale 2].map (Expr.field "sold").eval).filter fun v => !v.isNull) = [2, 3] := rfl
  have hUnsold : numbersOf (([sale 1].map (Expr.field "sold").eval).filter fun v => !v.isNull) = [] := rfl
  have hTotal : [(2 : Number), 3].foldl Number.add 0 = 5 := by decide +kernel
  have hTotals : [[sale 0, sale 2], [sale 1]].map (Aggregate.ofGroup ⟨"total", .sum, some (.field "sold")⟩) =
      [.number 5, .number 0] := by
    simp only [List.map_cons, List.map_nil] at hSold hUnsold ⊢
    simp only [Aggregate.ofGroup, AggregateFunction.ofValues, List.map_cons, List.map_nil, hSold, hUnsold, hTotal,
      List.foldl_nil]
  simp only [List.map_cons, List.map_nil, List.cons.injEq, and_true] at hTotals
  rw [hRecords, hGroups]
  simp only [List.map_cons, List.map_nil, recordOf, saleAggregates, hTotals.1, hTotals.2]
  rfl

end Pipeline
end Tabulate
