import Tabulate.Frame.Series
import Tabulate.Proofs.Frame.Derived

/-! Columns are valid for series if and only if a table with those columns makes series, whatever its
rows are. Both count the columns of times and of numbers, one before the table is there and one in
it. -/
namespace Tabulate

namespace Column

/-- Whether a column says where its values come from or what it is called. -/
def IsAddressed (c : Column) : Prop :=
  c.selector.toList.all Unicode.isBlank = false ∨ c.label.toList.all Unicode.isBlank = false

instance (c : Column) : Decidable c.IsAddressed := inferInstanceAs (Decidable (_ ∨ _))

end Column

namespace SeriesFault

def checkCounts (times numbers : Nat) : Except SeriesFault Unit :=
  if times = 0 then .error .noTimestamp
  else if times ≠ 1 then .error (.timestamps times)
  else if numbers = 0 then .error .noNumber
  else .ok ()

def ofColumns : SeriesFault → ColumnFault
  | noTimestamp => .timestamps 0
  | timestamps count => .timestamps count
  | noNumber => .noNumber

end SeriesFault

section Columns
variable {columns : List Column} {isSeries : Bool}

private theorem checkColumns_cases (isSeries : Bool) (columns : List Column) :
    (∃ c ∈ columns, ¬ c.IsAddressed) ∧ (∃ index, checkColumns isSeries columns = .error (.unaddressed index)) ∨
      (∀ c ∈ columns, c.IsAddressed) ∧ checkColumns isSeries columns =
        if !isSeries || columns.isEmpty then .ok ()
        else (SeriesFault.checkCounts (countOfType .timestamp columns)
          (countOfType .number columns)).mapError SeriesFault.ofColumns := by
  unfold checkColumns
  split
  next index hfound =>
    obtain ⟨hlt, hblank, -⟩ := List.findIdx?_eq_some_iff_getElem.mp hfound
    obtain ⟨hselector, hlabel⟩ := (Bool.and_eq_true_iff).mp hblank
    refine .inl ⟨⟨columns[index], List.getElem_mem hlt, ?_⟩, index, rfl⟩
    rintro (h | h)
    · exact Bool.eq_false_iff.mp h hselector
    · exact Bool.eq_false_iff.mp h hlabel
  next hnone =>
    refine .inr ⟨fun c hc => ?_, ?_⟩
    · have hblank := List.findIdx?_eq_none_iff.mp hnone c hc
      exact (Bool.and_eq_false_iff).mp hblank
    · unfold SeriesFault.checkCounts
      split_ifs <;> simp_all [Except.mapError, SeriesFault.ofColumns]

theorem isAddressed_of_checkColumns (h : checkColumns isSeries columns = .ok ()) :
    ∀ c ∈ columns, c.IsAddressed := by
  rcases checkColumns_cases isSeries columns with ⟨-, index, hfault⟩ | ⟨haddressed, -⟩
  · rw [hfault] at h
    contradiction
  · exact haddressed

/-- What a check says of declared columns for series depends on their counts. -/
theorem checkColumns_series (declared : columns ≠ []) (addressed : ∀ c ∈ columns, c.IsAddressed) :
    checkColumns true columns =
      (SeriesFault.checkCounts (countOfType .timestamp columns) (countOfType .number columns)).mapError
        SeriesFault.ofColumns := by
  rcases checkColumns_cases true columns with ⟨⟨c, hc, hblank⟩, -⟩ | ⟨-, hcheck⟩
  · exact absurd (addressed c hc) hblank
  · rwa [if_neg (by simpa using declared)] at hcheck

/-- A layout for times changes nothing that a check looks at. -/
theorem checkColumns_withPattern (pattern : Option String) (columns : List Column) :
    checkColumns isSeries (columns.map (·.withPattern pattern)) = checkColumns isSeries columns := by
  have hselector (c : Column) : (c.withPattern pattern).selector = c.selector := by
    unfold Column.withPattern
    split <;> rfl
  have hlabel (c : Column) : (c.withPattern pattern).label = c.label := by
    unfold Column.withPattern
    split <;> rfl
  have hformat (c : Column) : (c.withPattern pattern).format = c.format := by
    unfold Column.withPattern
    split <;> rfl
  simp only [checkColumns, countOfType, List.findIdx?_map, List.countP_map, Function.comp_def, hselector,
    hlabel, hformat, List.isEmpty_map]
  rfl

/-- Derived columns hold texts and numbers alone. -/
theorem countOfType_derivedColumns (rows : List Value) :
    countOfType .timestamp (derivedColumns rows) = 0 := by
  have hformat (v : Value) : (formatOf v).columnType ≠ .timestamp := by cases v <;> exact nofun
  rw [countOfType, List.countP_eq_zero]
  intro c hc
  rw [derivedColumns.eq_def] at hc
  split at hc
  · contradiction
  · obtain ⟨member, -, rfl⟩ := List.mem_map.mp hc
    simpa using hformat member.2
  · obtain ⟨item, -, rfl⟩ := List.mem_map.mp hc
    simpa using hformat item.1
  · obtain rfl := List.mem_singleton.mp hc
    simpa using hformat _

end Columns

namespace SeriesSet
variable (name : String)

private theorem length_columnsOfType (t : Table) (type : ColumnType) :
    (t.columnsOfType type).length = t.columns.countP (·.2 == type) := by
  rw [Table.columnsOfType, List.length_map, ← List.countP_eq_length_filter]
  have hfst := List.countP_map (p := fun c : String × ColumnType => c.2 == type) (f := Prod.fst)
    (l := t.columns.zipIdx)
  rw [List.zipIdx_map_fst] at hfst
  exact hfst.symm

private theorem yields_ofTable (t : Table) : ∃ r j, (ofTable t).Yields r j ∧
    r.map (fun _ => ()) = SeriesFault.checkCounts (t.columns.countP (·.2 == .timestamp))
      (t.columns.countP (·.2 == .number)) := by
  rw [← length_columnsOfType, ← length_columnsOfType]
  unfold ofTable
  match t.columnsOfType .timestamp with
  | [] => exact ⟨_, _, Reporting.yields_throw _, rfl⟩
  | first :: second :: more => exact ⟨_, _, Reporting.yields_throw _, rfl⟩
  | [(timeIndex, timeField)] =>
    dsimp only
    cases t.columnsOfType .number with
    | nil => exact ⟨_, _, Reporting.yields_throw _, rfl⟩
    | cons number numbers =>
      rw [if_neg (by simp)]
      split
      · exact ⟨_, _, (Reporting.yields_warn _).bind
          ((Reporting.yields_debug _ _).bind (Reporting.yields_pure _)), rfl⟩
      · exact ⟨_, _, (Reporting.yields_debug _ _).bind (Reporting.yields_pure _), rfl⟩

/-- Rows make series if the counts of the declared or derived columns allow it. -/
theorem yields_ofRows (columns : List Column) (rows : List Value) : ∃ used r j,
    used = (if columns.isEmpty then derivedColumns rows else columns) ∧
      (ofRows name columns rows).Yields r j ∧
        r.map (fun _ => ()) = SeriesFault.checkCounts (countOfType .timestamp used)
          (countOfType .number used) := by
  obtain ⟨used, note, hused, htable⟩ := Table.ofRows_yields_assemble (ε := SeriesFault) name columns rows
  obtain ⟨r, j, hseries, hcounts⟩ := yields_ofTable (Table.assemble name used rows)
  have hcount (type : ColumnType) :
      (Table.assemble name used rows).columns.countP (·.2 == type) = countOfType type used := by
    rw [Table.assemble, List.countP_map]
    rfl
  rw [hcount, hcount] at hcounts
  exact ⟨used, r, _, hused, htable.bind hseries, hcounts⟩

/-- Declared columns pass the check for series if and only if all rows make series in them. -/
theorem checkColumns_eq_ofRows {columns : List Column} (declared : columns ≠ [])
    (addressed : ∀ c ∈ columns, c.IsAddressed) (rows : List Value) :
    checkColumns true columns =
      ((ofRows name columns rows).outcome.1.map fun _ => ()).mapError SeriesFault.ofColumns := by
  obtain ⟨used, r, j, hused, hyields, hcounts⟩ := yields_ofRows name columns rows
  rw [if_neg (by simpa using declared)] at hused
  rw [checkColumns_series declared addressed, hyields.outcome, hcounts, hused]

/-- Without declared columns there is no time. -/
theorem yields_ofRows_derived (rows : List Value) :
    ∃ j, (ofRows name [] rows).Yields (.error .noTimestamp) j := by
  obtain ⟨used, r, j, hused, hyields, hcounts⟩ := yields_ofRows name [] rows
  obtain rfl : used = derivedColumns rows := hused
  rw [countOfType_derivedColumns] at hcounts
  cases r with
  | error fault =>
    cases hcounts
    exact ⟨j, hyields⟩
  | ok set => contradiction

end SeriesSet
end Tabulate
