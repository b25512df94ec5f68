import Mathlib.Data.List.Forall2
import Tabulate.Proofs.Frame.Derived

/-! Tables are typed: the declared columns in order, and for each row one cell for each column, which
is null or of the type of the column. Values that are lost on the way are counted in warnings. -/
namespace Tabulate

def Cell.HasType : Cell → ColumnType → Prop
  | null, _ => True
  | string _, type => type = .string
  | number _, type => type = .number
  | timestamp _, type => type = .timestamp

namespace Value

/-- Whether there is nothing to convert: null, or a text of white space. -/
def isVacant : Value → Bool
  | null => true
  | string text => text.toList.all Unicode.isBlank
  | _ => false

/-- Each way to convert a value ends in null or in a cell of the type of the format. -/
theorem hasType_toCell (format : ColumnFormat) (pattern : Option String) (v : Value) :
    (v.toCell format pattern).HasType format.columnType := by
  unfold toCell
  cases format.columnType with
  | string => cases v.toText? <;> trivial
  | number => cases v.toNumber? <;> trivial
  | timestamp => cases v.toInstant? format pattern <;> trivial

/-- A text form is missing for null alone. -/
theorem isNull_toCell_string_iff (pattern : Option String) (v : Value) :
    (v.toCell .string pattern).isNull = v.isNull := by
  cases v <;> rfl

end Value

namespace Column

/-- The cell that a column makes of a row: of null, where its path leads nowhere. -/
def cellAt (c : Column) (row : Value) : Cell :=
  match row.at? (Path.ofText c.selector) with
  | some v => v.toCell c.format c.pattern
  | none => .null

theorem cellOf_eq_cellAt (c : Column) (row : Value) : c.cellOf row = c.cellAt row := by
  unfold cellOf select Value.resolve cellAt
  cases row.at? (Path.ofText c.selector) with
  | some v => rfl
  | none => cases c with | mk selector label format pattern => cases format <;> rfl

/-- The number of rows in which a column finds something and makes null of it. -/
def lost (c : Column) (rows : List Value) : Nat :=
  rows.countP fun row => (c.cellAt row).isNull && !(row.resolve c.selector).isVacant

def lossWarning (c : Column) (rows : List Value) : Option String :=
  if c.lost rows = 0 then none
  else some s!"column '{c.name}': {c.lost rows} value(s) could not be converted to {c.format.title}"

theorem warning?_eq_lossWarning (c : Column) (rows : List Value) :
    c.warning? rows = c.lossWarning rows := by
  have hlost : c.lost rows =
      rows.countP fun row => (c.cellOf row).isNull && !(c.select row).isVacant := by
    simp only [lost, cellOf_eq_cellAt, select]
  rw [lossWarning, hlost]
  rfl

/-- A column of texts loses nothing. -/
theorem lost_string {c : Column} (h : c.format = .string) (rows : List Value) : c.lost rows = 0 := by
  rw [lost, List.countP_eq_zero]
  intro row _
  have hcell : (c.cellAt row).isNull = (row.resolve c.selector).isNull := by
    rw [← cellOf_eq_cellAt, cellOf, h, Value.isNull_toCell_string_iff]
    rfl
  rw [hcell]
  cases row.resolve c.selector <;> simp [Value.isNull, Value.isVacant]

end Column

namespace Table

/-- A table with the declared columns that has the cells of all rows in order. -/
structure IsTableOf (columns : List Column) (rows : List Value) (t : Table) : Prop where
  header : t.columns = columns.map fun c =>
    (if c.label.toList.all Unicode.isBlank then c.selector else c.label, c.format.columnType)
  height : t.rows.length = rows.length
  width : ∀ cells ∈ t.rows, cells.length = columns.length
  cell (i j : Nat) : (t.rows[i]?).bind (·[j]?) =
    (rows[i]?).bind fun row => (columns[j]?).map fun c => c.cellAt row
  typed : ∀ cells ∈ t.rows, List.Forall₂ Cell.HasType cells (t.columns.map Prod.snd)

private theorem isTableOf_assemble (name : String) (columns : List Column) (rows : List Value) :
    IsTableOf columns rows (assemble name columns rows) where
  header := rfl
  height := List.length_map _
  width := by
    intro cells hcells
    obtain ⟨row, -, rfl⟩ := List.mem_map.mp hcells
    exact List.length_map _
  cell i j := by
    simp only [assemble, List.getElem?_map, Option.bind_map, Function.comp_def, Column.cellOf_eq_cellAt]
  typed := by
    intro cells hcells
    obtain ⟨row, -, rfl⟩ := List.mem_map.mp hcells
    rw [assemble, List.map_map, List.forall₂_map_left_iff, List.forall₂_map_right_iff, List.forall₂_same]
    intro c _
    exact Value.hasType_toCell c.format c.pattern _

/-- Rows in declared columns make a typed table. After the warnings that are there already comes one
for each column that loses something, in order of the columns and with the number of rows. -/
theorem ofRows_isTableOf {ε : Type} (name : String) {columns : List Column} (declared : columns ≠ [])
    (rows : List Value) (before : Journal) :
    ∃ table after, (ofRows name columns rows : Reporting ε Table).run.run before = (.ok table, after) ∧
      table.name = name ∧ IsTableOf columns rows table ∧
      after.warnings = before.warnings ++ columns.filterMap (·.lossWarning rows) := by
  obtain ⟨used, note, hUsed, hYields⟩ := ofRows_yields_assemble (ε := ε) name columns rows
  rw [if_neg (by simpa using declared)] at hUsed
  subst hUsed
  refine ⟨_, _, hYields before, rfl, isTableOf_assemble name used rows, ?_⟩
  simp only [Journal.warnings_append, Journal.warnings_warned, Journal.warnings_debug,
    Journal.warnings_nil, List.append_nil, Column.warning?_eq_lossWarning]

def mixedColumns : List Column :=
  [⟨"n", "x", .number, none⟩, ⟨"at", "x", .epochSeconds, none⟩, ⟨"n", " ", .string, none⟩]

/-- A row that is converted, one with a word and a blank text in place of numbers, and one that is no
object. -/
def mixedRows : List Value :=
  [.object [("n", .string "1,5"), ("at", .ofNat 0)], .object [("n", .string "two"), ("at", .string " ")],
    .ofNat 7]

theorem ofRows_isTableOf_mixed : mixedColumns ≠ [] ∧
    ∃ table after, (ofRows "" mixedColumns mixedRows : Reporting Empty Table).run.run
        [⟨.warn, .data, "before"⟩] = (.ok table, after) ∧
      table.columns = [("x", .number), ("x", .timestamp), ("n", .string)] ∧
      (table.rows[1]?).bind (·[0]?) = some .null ∧ (table.rows[1]?).bind (·[2]?) = some (.string "two") ∧
      after.warnings = ["before", "column 'x': 1 value(s) could not be converted to Number"] := by
  have declared : mixedColumns ≠ [] := by decide
  obtain ⟨table, after, hRun, -, hTable, hWarnings⟩ :=
    ofRows_isTableOf (ε := Empty) "" declared mixedRows [⟨.warn, .data, "before"⟩]
  refine ⟨declared, table, after, hRun, ?_, ?_, ?_, ?_⟩
  · rw [hTable.header]
    decide +kernel
  · rw [hTable.cell]
    decide +kernel
  · rw [hTable.cell]
    decide +kernel
  · rw [hWarnings]
    decide +kernel

end Table
end Tabulate
