import Mathlib.Data.List.Forall2
import Tabulate.Proofs.Frame.KeyText
import Tabulate.Proofs.Frame.Typing
import Tabulate.Proofs.Grouping
import Tabulate.Proofs.Reports
import Tabulate.Proofs.Sorting

/-! A set of series holds the number of each timed row once, under the texts of that row. -/
namespace Tabulate

def columnsOf (type : ColumnType) (columns : List Column) : List Column :=
  columns.filter fun c => c.format.columnType == type

namespace Column
variable {c : Column}

private theorem hasType_cellAt (c : Column) (row : Value) : (c.cellAt row).HasType c.format.columnType := by
  rw [← cellOf_eq_cellAt]
  exact Value.hasType_toCell c.format c.pattern _

private theorem timestamp_or_null (h : c.format.columnType = .timestamp) (row : Value) :
    (∃ t, c.cellAt row = .timestamp t) ∨ c.cellAt row = .null := by
  have typed := c.hasType_cellAt row
  rw [h] at typed
  cases hc : c.cellAt row with
  | null => exact .inr rfl
  | timestamp t => exact .inl ⟨t, rfl⟩
  | string text | number n =>
    rw [hc] at typed
    cases typed

private theorem number_or_null (h : c.format.columnType = .number) (row : Value) :
    (∃ n, c.cellAt row = .number n) ∨ c.cellAt row = .null := by
  have typed := c.hasType_cellAt row
  rw [h] at typed
  cases hc : c.cellAt row with
  | null => exact .inr rfl
  | number n => exact .inl ⟨n, rfl⟩
  | string text | timestamp t =>
    rw [hc] at typed
    cases typed

private theorem isText_cellAt (h : c.format.columnType = .string) (row : Value) : (c.cellAt row).IsText := by
  have typed := c.hasType_cellAt row
  rw [h] at typed
  cases hc : c.cellAt row with
  | null | string text => trivial
  | number n | timestamp t =>
    rw [hc] at typed
    cases typed

end Column

namespace Pivot
variable (columns : List Column) (time : Column) (rows : List Value)

abbrev TimedRow := Instant × Value

def timed : List TimedRow := rows.filterMap fun row =>
  match time.cellAt row with
  | .timestamp t => some (t, row)
  | .null | .string _ | .number _ => none

def texts (row : Value) : List Cell := (columnsOf .string columns).map (·.cellAt row)

/-- The tuples of texts that timed rows have, in order of first appearance. -/
def keys : List (List Cell) := ((timed time rows).map fun r => texts columns r.2).eraseDups

def members (key : List Cell) : List TimedRow := (timed time rows).filter fun r => texts columns r.2 = key

def NotLater (a b : Instant) : Prop :=
  a.seconds < b.seconds ∨ (a.seconds = b.seconds ∧ a.nanos ≤ b.nanos)

/-- Rows in order of time; those of one instant stand in their first order. -/
structure InTimeOrder (unsorted sorted : List TimedRow) : Prop where
  perm : sorted.Perm unsorted
  ascending : sorted.Pairwise fun a b => NotLater a.1 b.1
  stable : ∀ t, sorted.filter (fun r => r.1 = t) = unsorted.filter fun r => r.1 = t

/-- What a point shows of a cell: its number, and nothing for null. -/
inductive Shows : Cell → Option Number → Prop
  | number (n : Number) : Shows (.number n) (some n)
  | null : Shows .null none

/-- A point at the time of a row, with the number that a column has there. -/
structure IsPointOf (c : Column) (r : TimedRow) (p : Point) : Prop where
  time : p.time = r.1
  value : Shows (c.cellAt r.2) p.value

structure IsSeriesOf (key : List Cell) (c : Column) (sorted : List TimedRow) (s : Series) : Prop where
  key : s.key = key
  field : s.field = c.name
  points : List.Forall₂ (IsPointOf c) sorted s.points

/-- One series for each tuple of texts and each column of numbers, with the points of its rows. -/
structure IsPivot (set : SeriesSet) : Prop where
  timeField : set.timeField = time.name
  dimensions : set.dimensions = (columnsOf .string columns).map (·.name)
  /-- The timed rows are those whose time is not null. -/
  haveTime : (timed time rows).map Prod.snd = rows.filter fun row => time.cellAt row ≠ .null
  /-- Each timed row is a member under one key. -/
  partition : ((keys columns time rows).flatMap (members columns time rows)).Perm (timed time rows)
  series : ∃ sorted : List Cell → List TimedRow,
    (∀ key, InTimeOrder (members columns time rows key) (sorted key)) ∧
    List.Forall₂ (fun place s => IsSeriesOf place.1 place.2 (sorted place.1) s)
      ((keys columns time rows).flatMap fun key => (columnsOf .number columns).map fun c => (key, c)) set.series

def droppedWarning (count : Nat) : List String :=
  if count = 0 then [] else [s!"dropped {count} row(s) without a timestamp"]

section Places

private def places (type : ColumnType) : List (Column × Nat) :=
  columns.zipIdx.filter fun p => p.1.format.columnType == type

private theorem map_fst_places (type : ColumnType) :
    (places columns type).map Prod.fst = columnsOf type columns := by
  have h := List.filter_map (f := Prod.fst) (p := fun c : Column => c.format.columnType == type)
    (l := columns.zipIdx)
  rw [List.zipIdx_map_fst] at h
  exact h.symm

private theorem columnsOfType_assemble (name : String) (type : ColumnType) :
    (Table.assemble name columns rows).columnsOfType type =
      (places columns type).map fun p => (p.2, p.1.name) := by
  simp only [Table.columnsOfType, Table.assemble, places, List.zipIdx_map, List.filter_map,
    List.map_map]
  rfl

private def cells (row : Value) : List Cell := columns.map (·.cellAt row)

private theorem rows_assemble (name : String) :
    (Table.assemble name columns rows).rows = rows.map (cells columns) := by
  simp only [Table.assemble, Column.cellOf_eq_cellAt]
  rfl

private theorem cells_getElem? {type : ColumnType} {p : Column × Nat} (h : p ∈ places columns type)
    (row : Value) : (cells columns row)[p.2]? = some (p.1.cellAt row) := by
  have hp := List.mem_zipIdx_iff_getElem?.mp (List.mem_filter.mp h).1
  simp [cells, hp]

private theorem cellsAt_places (row : Value) :
    cellsAt ((places columns .string).map (·.2)) (cells columns row) = texts columns row := by
  rw [texts, ← map_fst_places, cellsAt, List.map_map, List.map_map]
  apply List.map_congr_left
  intro p hp
  simp [cells_getElem? columns hp]

end Places

section Groups

private def lift (r : TimedRow) : Timed := (r.1, cells columns r.2)

private theorem timedRows_map {index : Nat} (h : (time, index) ∈ places columns .timestamp) :
    timedRows index (rows.map (cells columns)) = (timed time rows).map (lift columns) := by
  rw [timedRows, timed, List.filterMap_map, List.map_filterMap]
  apply List.filterMap_congr
  intro row _
  simp only [Function.comp_apply, cells_getElem? columns h, Option.bind_some]
  cases time.cellAt row <;> rfl

private theorem keyText_texts {a b : Value} :
    keyText (texts columns a) = keyText (texts columns b) ↔ texts columns a = texts columns b := by
  have htext (row : Value) : ∀ c ∈ texts columns row, c.IsText := by
    intro c hc
    obtain ⟨column, hmem, rfl⟩ := List.mem_map.mp hc
    exact Column.isText_cellAt (by simpa using (List.mem_filter.mp hmem).2) row
  exact ⟨Cell.keyText_inj (htext a) (htext b), congrArg keyText⟩

private theorem foldl_append_members {κ α : Type} (key : κ) (items added : List α) :
    added.foldl (fun (state : κ × List α) a => (state.1, state.2 ++ [a])) (key, items) =
      (key, items ++ added) := by
  induction added generalizing items with
  | nil => rw [List.foldl_nil, List.append_nil]
  | cons a added ih => rw [List.foldl_cons, ih, List.append_assoc, List.singleton_append]

private theorem groupTimed_lift (index : Nat) (h : (time, index) ∈ places columns .timestamp) :
    groupTimed ((places columns .string).map (·.2)) (timedRows index (rows.map (cells columns))) =
      (keys columns time rows).map fun key =>
        (key, (members columns time rows key).map (lift columns)) := by
  rw [timedRows_map columns time rows h, groupTimed, Groups.fold_map, Groups.fold_eq]
  simp only [lift, cellsAt_places]
  rw [Groups.firsts_congr _ fun a b => keyText_texts columns (a := a.2) (b := b.2), keys,
    ← Groups.map_firsts, List.map_map, List.map_map]
  apply List.map_congr_left
  intro r _
  simp only [Function.comp_apply, keyText_texts, members]
  have hfold := foldl_append_members (texts columns r.2) [] <|
    ((timed time rows).filter fun b => texts columns b.2 = texts columns r.2).map (lift columns)
  rw [List.foldl_map] at hfold
  exact hfold

end Groups

section Order

private theorem notAfter_trans (a b c : Instant) (hab : notAfter a b) (hbc : notAfter b c) :
    notAfter a c := by
  simp only [notAfter, Bool.or_eq_true, Bool.and_eq_true, decide_eq_true_eq, beq_iff_eq] at *
  omega

private theorem notAfter_total (a b : Instant) : notAfter a b || notAfter b a := by
  simp only [notAfter, Bool.or_eq_true, Bool.and_eq_true, decide_eq_true_eq, beq_iff_eq]
  omega

private theorem notAfter_antisymm_iff (a b : Instant) : (notAfter a b && notAfter b a) = decide (b = a) := by
  cases a
  cases b
  rw [Bool.eq_iff_iff]
  simp only [notAfter, Bool.or_eq_true, Bool.and_eq_true, decide_eq_true_eq, beq_iff_eq,
    Instant.mk.injEq]
  omega

private theorem notAfter_iff_notLater {a b : Instant} : notAfter a b ↔ NotLater a b := by
  simp [notAfter, NotLater]

private def byTime (unsorted : List TimedRow) : List TimedRow :=
  unsorted.mergeSort fun a b => notAfter a.1 b.1

private theorem inTimeOrder_byTime (unsorted : List TimedRow) : InTimeOrder unsorted (byTime unsorted) := by
  have h : StablySorted (fun a b => notAfter a.1 b.1) unsorted (byTime unsorted) :=
    stablySorted_mergeSort (fun a b c => notAfter_trans a.1 b.1 c.1)
      (fun a b => notAfter_total a.1 b.1) unsorted
  refine ⟨h.perm, h.ordered.imp notAfter_iff_notLater.mp, fun t => ?_⟩
  have hlevel := h.stable (t, .null)
  simp only [notAfter_antisymm_iff] at hlevel
  exact hlevel

/-- Rows have one order of time. -/
theorem InTimeOrder.unique {unsorted sorted sorted' : List TimedRow} (h : InTimeOrder unsorted sorted)
    (h' : InTimeOrder unsorted sorted') : sorted = sorted' := by
  have hle {items : List TimedRow} (ascending : items.Pairwise fun a b => NotLater a.1 b.1) :
      items.Pairwise fun a b => notAfter a.1 b.1 := ascending.imp notAfter_iff_notLater.mpr
  have hrefl : ∀ a ∈ sorted, notAfter a.1 a.1 := fun a _ => notAfter_iff_notLater.mpr (.inr ⟨rfl, Nat.le_refl _⟩)
  refine eq_of_stable hrefl (h.perm.trans h'.perm.symm) (hle h.ascending) (hle h'.ascending) fun a _ => ?_
  simp only [notAfter_antisymm_iff]
  exact (h.stable a.1).trans (h'.stable a.1).symm

private def seriesAt (key : List Cell) (c : Column) (sorted : List TimedRow) : Series :=
  ⟨key, c.name, sorted.map fun r => ⟨r.1, (c.cellAt r.2).asNumber?⟩⟩

private theorem isSeriesOf_seriesAt (key : List Cell) {c : Column} (h : c.format.columnType = .number)
    (sorted : List TimedRow) : IsSeriesOf key c sorted (seriesAt key c sorted) where
  key := rfl
  field := rfl
  points := by
    rw [seriesAt, List.forall₂_map_right_iff, List.forall₂_same]
    intro r _
    refine ⟨rfl, ?_⟩
    obtain ⟨n, hcell⟩ | hcell := Column.number_or_null h r.2
    · rw [hcell]
      exact .number n
    · rw [hcell]
      exact .null

private theorem seriesOf_lift (key : List Cell) (unsorted : List TimedRow) :
    seriesOf ((places columns .number).map fun p => (p.2, p.1.name)) (key, unsorted.map (lift columns)) =
      (columnsOf .number columns).map fun c => seriesAt key c (byTime unsorted) := by
  have hsort : (unsorted.map (lift columns)).mergeSort (fun a b => notAfter a.1 b.1) =
      (byTime unsorted).map (lift columns) :=
    (List.map_mergeSort (r := fun a b : TimedRow => notAfter a.1 b.1) (f := lift columns)
      fun _ _ _ _ => rfl).symm
  simp only [seriesOf, hsort]
  rw [← map_fst_places, List.map_map, List.map_map]
  apply List.map_congr_left
  intro p hp
  simp only [Function.comp_apply, List.map_map, seriesAt]
  congr 1
  apply List.map_congr_left
  intro r _
  simp [lift, cells_getElem? columns hp]

end Order

section Outcome

private theorem map_snd_timed (h : time.format.columnType = .timestamp) :
    (timed time rows).map Prod.snd = rows.filter fun row => time.cellAt row ≠ .null := by
  rw [timed, List.map_filterMap, ← List.filterMap_eq_filter]
  apply List.filterMap_congr
  intro row _
  obtain ⟨t, hcell⟩ | hcell := Column.timestamp_or_null h row <;> simp [hcell, Option.guard]

private theorem length_timed (h : time.format.columnType = .timestamp) :
    rows.length - (timed time rows).length = rows.countP fun row => time.cellAt row = .null := by
  have hsome := congrArg List.length (map_snd_timed time rows h)
  rw [List.length_map, ← List.countP_eq_length_filter] at hsome
  have htotal := List.length_eq_countP_add_countP (fun row => time.cellAt row = .null) (l := rows)
  simp only [ne_eq, decide_eq_true_eq] at hsome htotal
  omega

private theorem length_dropped {index : Nat} (h : (time, index) ∈ places columns .timestamp) :
    (rows.map (cells columns)).length - (timedRows index (rows.map (cells columns))).length =
      rows.countP fun row => time.cellAt row = .null := by
  have htype : time.format.columnType = .timestamp := by simpa using (List.mem_filter.mp h).2
  rw [timedRows_map columns time rows h, List.length_map, List.length_map, length_timed time rows htype]

private def pivot (name : String) : SeriesSet :=
  ⟨name, time.name, (columnsOf .string columns).map (·.name),
    (keys columns time rows).flatMap fun key => (columnsOf .number columns).map fun c =>
      seriesAt key c (byTime (members columns time rows key))⟩

private theorem isPivot_pivot (h : time.format.columnType = .timestamp) (name : String) :
    IsPivot columns time rows (pivot columns time rows name) where
  timeField := rfl
  dimensions := rfl
  haveTime := map_snd_timed time rows h
  partition := Groups.perm_flatMap_filter (fun r : TimedRow => texts columns r.2) (timed time rows)
  series := by
    refine ⟨fun key => byTime (members columns time rows key), fun _ => inTimeOrder_byTime _, ?_⟩
    have hplaces : (pivot columns time rows name).series =
        ((keys columns time rows).flatMap fun key => (columnsOf .number columns).map fun c => (key, c)).map
          fun place => seriesAt place.1 place.2 (byTime (members columns time rows place.1)) := by
      simp only [pivot, List.map_flatMap, List.map_map, Function.comp_def]
    rw [hplaces, List.forall₂_map_right_iff, List.forall₂_same]
    rintro ⟨key, c⟩ hplace
    obtain ⟨_, -, hc⟩ := List.mem_flatMap.mp hplace
    obtain ⟨_, hNumber, heq⟩ := List.mem_map.mp hc
    cases heq
    exact isSeriesOf_seriesAt key (by simpa using (List.mem_filter.mp hNumber).2) _

private theorem flatMap_seriesOf (name : String) {index : Nat}
    (h : (time, index) ∈ places columns .timestamp) :
    (groupTimed ((places columns .string).map (·.2)) (timedRows index (rows.map (cells columns)))).flatMap
        (seriesOf ((places columns .number).map fun p => (p.2, p.1.name))) =
      (pivot columns time rows name).series := by
  rw [groupTimed_lift columns time rows index h, List.flatMap_map]
  simp only [seriesOf_lift]
  rfl

private theorem places_eq_singleton (h : columnsOf .timestamp columns = [time]) :
    ∃ index, places columns .timestamp = [(time, index)] := by
  rw [← map_fst_places, List.map_eq_singleton_iff] at h
  obtain ⟨⟨c, index⟩, hp, rfl⟩ := h
  exact ⟨index, hp⟩

private theorem ofTable_assemble (name : String) (hTime : columnsOf .timestamp columns = [time])
    (hNumber : columnsOf .number columns ≠ []) :
    ∃ note, (SeriesSet.ofTable (Table.assemble name columns rows)).Yields
      (.ok (pivot columns time rows name))
      (Journal.warned (droppedWarning (rows.countP fun row => time.cellAt row = .null)) ++
        [⟨.debug, .series, note⟩]) := by
  obtain ⟨index, hPlace⟩ := places_eq_singleton columns time hTime
  have hMem : (time, index) ∈ places columns .timestamp := by
    rw [hPlace]
    exact List.mem_singleton_self _
  have hNames : (places columns .string).map (fun p => p.1.name) =
      (columnsOf .string columns).map (·.name) := by
    rw [← map_fst_places, List.map_map]
    rfl
  have hSome : ((places columns .number).map fun p => (p.2, p.1.name)).isEmpty = false := by
    rw [← map_fst_places] at hNumber
    simpa using hNumber
  unfold SeriesSet.ofTable
  simp only [columnsOfType_assemble, hPlace, List.map_cons, List.map_nil, hSome, rows_assemble, List.map_map,
    Function.comp_def, length_dropped columns time rows hMem, hNames,
    flatMap_seriesOf columns time rows name hMem]
  rw [if_neg (by decide)]
  by_cases none : rows.countP (fun row => time.cellAt row = .null) = 0
  · rw [if_neg (not_not.mpr none), droppedWarning, if_pos none]
    exact ⟨_, (Reporting.yields_debug _ _).bind (Reporting.yields_pure _)⟩
  · rw [if_pos none, droppedWarning, if_neg none]
    exact ⟨_, (Reporting.yields_warn _).bind
      ((Reporting.yields_debug _ _).bind (Reporting.yields_pure _))⟩

end Outcome

section Uniqueness
variable {columns time rows}

private theorem Shows.unique {cell : Cell} {value value' : Option Number} (h : Shows cell value)
    (h' : Shows cell value') : value = value' := by
  cases h <;> cases h' <;> rfl

private theorem IsPointOf.unique {c : Column} {r : TimedRow} {p p' : Point} (h : IsPointOf c r p)
    (h' : IsPointOf c r p') : p = p' := by
  cases p
  cases p'
  rw [Point.mk.injEq]
  exact ⟨h.time.trans h'.time.symm, h.value.unique h'.value⟩

private theorem IsSeriesOf.unique {key : List Cell} {c : Column} {sorted : List TimedRow} {s s' : Series}
    (h : IsSeriesOf key c sorted s) (h' : IsSeriesOf key c sorted s') : s = s' := by
  have hright : Relator.RightUnique (IsPointOf c) := fun _ _ _ hp hp' => hp.unique hp'
  have hpoints : s.points = s'.points := List.right_unique_forall₂' hright h.points h'.points
  cases s
  cases s'
  rw [Series.mk.injEq]
  exact ⟨h.key.trans h'.key.symm, h.field.trans h'.field.symm, hpoints⟩

/-- Rows in columns have one list of series. -/
theorem IsPivot.series_unique {set set' : SeriesSet} (h : IsPivot columns time rows set)
    (h' : IsPivot columns time rows set') : set.series = set'.series := by
  obtain ⟨sorted, hsorted, hseries⟩ := h.series
  obtain ⟨sorted', hsorted', hseries'⟩ := h'.series
  obtain rfl : sorted = sorted' := funext fun key => (hsorted key).unique (hsorted' key)
  have hright : Relator.RightUnique fun (place : List Cell × Column) s =>
      IsSeriesOf place.1 place.2 (sorted place.1) s := fun _ _ _ hs hs' => hs.unique hs'
  exact List.right_unique_forall₂' hright hseries hseries'

end Uniqueness

end Pivot

/-- The warnings of a table come first, one for each column that needs one. -/
theorem Table.ofRows_yields {ε : Type} (name : String) {columns : List Column} (h : columns ≠ [])
    (rows : List Value) :
    ∃ note, (Table.ofRows name columns rows : Reporting ε Table).Yields
      (.ok (Table.assemble name columns rows))
      (Journal.warned (columns.filterMap (·.lossWarning rows)) ++ [⟨.debug, .table, note⟩]) := by
  obtain ⟨used, note, hUsed, hYields⟩ := Table.ofRows_yields_assemble (ε := ε) name columns rows
  rw [if_neg (by simpa using h)] at hUsed
  simp only [Column.warning?_eq_lossWarning] at hYields
  exact ⟨note, hUsed ▸ hYields⟩

/-- A list of columns with one time and at least one number makes series of any rows. They hold
the number of each timed row once; a row without a time is in none, and such rows are counted in
one warning after those of the table. -/
theorem SeriesSet.ofRows_isPivot (name : String) (columns : List Column) (rows : List Value)
    (oneTime : countOfType .timestamp columns = 1) (someNumber : 0 < countOfType .number columns) :
    ∃ time set journal, columnsOf .timestamp columns = [time] ∧
      (SeriesSet.ofRows name columns rows).outcome = (.ok set, journal) ∧
      Pivot.IsPivot columns time rows set ∧
      journal.warnings = columns.filterMap (·.lossWarning rows) ++
        Pivot.droppedWarning (rows.countP fun row => time.cellAt row = .null) := by
  rw [countOfType, List.countP_eq_length_filter] at oneTime someNumber
  obtain ⟨time, hTime⟩ := List.length_eq_one_iff.mp oneTime
  have hNumber : columnsOf .number columns ≠ [] := List.ne_nil_of_length_pos someNumber
  have hColumns : columns ≠ [] := by
    rintro rfl
    exact hNumber rfl
  obtain ⟨tableNote, hTable⟩ := Table.ofRows_yields (ε := SeriesFault) name hColumns rows
  obtain ⟨seriesNote, hSeries⟩ := Pivot.ofTable_assemble columns time rows name hTime hNumber
  have hType : time.format.columnType = .timestamp := by
    have hMem : time ∈ columnsOf .timestamp columns := by
      rw [columnsOf, hTime]
      exact List.mem_singleton_self time
    simpa using (List.mem_filter.mp hMem).2
  refine ⟨time, _, _, hTime, (hTable.bind hSeries).outcome, Pivot.isPivot_pivot columns time rows hType name, ?_⟩
  simp only [Journal.warnings_append, Journal.warnings_warned, Journal.warnings_debug,
    Journal.warnings_nil, List.append_nil]

namespace Pivot

def cityTime : Column := ⟨"at", "", .epochSeconds, none⟩

def cityColumns : List Column := [cityTime, ⟨"city", "", .string, none⟩, ⟨"n", "", .number, none⟩]

/-- Readings at one time without a city, one without a time, one of nothing in a city without a name, and one
before the first. -/
def reading : Fin 5 → Value
  | 0 => .object [("at", .ofNat 9), ("city", .null), ("n", .ofNat 1)]
  | 1 => .object [("city", .string "Oslo"), ("n", .ofNat 2)]
  | 2 => .object [("at", .ofNat 7), ("city", .string "")]
  | 3 => .object [("at", .ofNat 9), ("n", .ofNat 3)]
  | 4 => .object [("at", .ofNat 5), ("n", .ofNat 4)]

def readings : List Value := [0, 1, 2, 3, 4].map reading

def citySeries : List Series :=
  [⟨[.null], "n", [⟨⟨5, 0⟩, some 4⟩, ⟨⟨9, 0⟩, some 1⟩, ⟨⟨9, 0⟩, some 3⟩]⟩,
    ⟨[.string ""], "n", [⟨⟨7, 0⟩, none⟩]⟩]

private theorem keys_readings : keys cityColumns cityTime readings = [[.null], [.string ""]] := by
  decide +kernel

private theorem series_readings (name : String) : (pivot cityColumns cityTime readings name).series = citySeries := by
  have hcells : ([0, 1, 2, 3, 4].map fun i => cityColumns.map (·.cellAt (reading i))) =
      [[.timestamp ⟨9, 0⟩, .null, .number 1], [.null, .string "Oslo", .number 2],
        [.timestamp ⟨7, 0⟩, .string "", .null], [.timestamp ⟨9, 0⟩, .null, .number 3],
        [.timestamp ⟨5, 0⟩, .null, .number 4]] := by
    decide +kernel
  simp only [cityColumns, List.map_cons, List.map_nil, List.cons.injEq, and_true] at hcells
  obtain ⟨h0, h1, h2, h3, h4⟩ := hcells
  have htimed : timed cityTime readings =
      [(⟨9, 0⟩, reading 0), (⟨7, 0⟩, reading 2), (⟨9, 0⟩, reading 3), (⟨5, 0⟩, reading 4)] := by
    simp only [timed, readings, List.map_cons, List.map_nil, List.filterMap_cons, List.filterMap_nil,
      h0, h1, h2, h3, h4]
  have hstrings : columnsOf .string cityColumns = [⟨"city", "", .string, none⟩] := rfl
  have hnumbers : columnsOf .number cityColumns = [⟨"n", "", .number, none⟩] := rfl
  have hnull : members cityColumns cityTime readings [.null] =
      [(⟨9, 0⟩, reading 0), (⟨9, 0⟩, reading 3), (⟨5, 0⟩, reading 4)] := by
    simp [members, htimed, texts, hstrings, h0, h2, h3, h4]
  have hblank : members cityColumns cityTime readings [.string ""] = [(⟨7, 0⟩, reading 2)] := by
    simp [members, htimed, texts, hstrings, h0, h2, h3, h4]
  have hsorted : byTime [(⟨9, 0⟩, reading 0), (⟨9, 0⟩, reading 3), (⟨5, 0⟩, reading 4)] =
      [(⟨5, 0⟩, reading 4), (⟨9, 0⟩, reading 0), (⟨9, 0⟩, reading 3)] := by
    refine (inTimeOrder_byTime _).unique ⟨?_, by simp [NotLater], fun t => ?_⟩
    · exact @List.perm_append_comm _ [_] [_, _]
    · by_cases ht : (⟨5, 0⟩ : Instant) = t
      · simp [← ht]
      · simp [List.filter_cons, ht]
  have hsingle : byTime [(⟨7, 0⟩, reading 2)] = [(⟨7, 0⟩, reading 2)] := List.mergeSort_singleton _
  simp only [pivot, keys_readings, hnumbers, List.flatMap_cons, List.flatMap_nil, List.map_cons, List.map_nil,
    hnull, hblank, hsorted, hsingle, seriesAt, h0, h2, h3, h4]
  rfl

end Pivot

theorem SeriesSet.ofRows_isPivot_cities :
    countOfType .timestamp Pivot.cityColumns = 1 ∧ 0 < countOfType .number Pivot.cityColumns ∧
      ∃ time set journal, columnsOf .timestamp Pivot.cityColumns = [time] ∧
        (SeriesSet.ofRows "cities" Pivot.cityColumns Pivot.readings).outcome = (.ok set, journal) ∧
        Pivot.IsPivot Pivot.cityColumns time Pivot.readings set ∧
        Pivot.keys Pivot.cityColumns time Pivot.readings = [[.null], [.string ""]] ∧
        set.series = Pivot.citySeries ∧
        journal.warnings = ["dropped 1 row(s) without a timestamp"] := by
  refine ⟨by decide, by decide, ?_⟩
  obtain ⟨time, set, journal, hTime, hSet, hPivot, hWarnings⟩ :=
    SeriesSet.ofRows_isPivot "cities" Pivot.cityColumns Pivot.readings (by decide) (by decide)
  obtain rfl : Pivot.cityTime = time := (List.cons.inj hTime).1
  refine ⟨_, set, journal, hTime, hSet, hPivot, Pivot.keys_readings, ?_, ?_⟩
  · rw [← Pivot.series_readings "cities"]
    exact hPivot.series_unique (Pivot.isPivot_pivot _ _ _ rfl _)
  · rw [hWarnings]
    decide +kernel

end Tabulate
