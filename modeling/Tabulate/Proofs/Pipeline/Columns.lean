import Tabulate.Proofs.Pipeline.Composition
import Tabulate.Proofs.Pipeline.Summary

/-! The columns that a stage asks for and those that its record has: of columns with one name the record keeps the
last, so it has all of them only if no two have the same name. -/
namespace Tabulate.Pipeline

/-- A record of columns: each name stands where it comes first and has the last of its values, so the record has
as many fields as there are columns only if their names are distinct. -/
structure IsRecordOf (columns : List (String × Value)) (record : Fields) : Prop where
  keys : record.keys = (columns.map Prod.fst).eraseDups
  value : ∀ name, record.get? name = Fields.get? columns.reverse name
  length_eq_iff : record.length = columns.length ↔ (columns.map Prod.fst).Nodup

private theorem isRecordOf_ofList (columns : List (String × Value)) : IsRecordOf columns (Fields.ofList columns) :=
  ⟨Fields.keys_ofList columns, Fields.get?_ofList columns, Fields.length_ofList_eq_iff columns⟩

def assigned (assignments : List Assignment) (row : Value) : List (String × Value) :=
  assignments.map fun a => (a.name, a.expr.eval row)

/-- The columns that a summary asks of a sole row: the fields that it is grouped by, then the aggregates. -/
def summed (aggregates : List Aggregate) (fields : List String) (row : Value) : List (String × Value) :=
  fields.map (fun field => (field, row.resolve field)) ++ aggregates.map fun a => (a.name, a.ofGroup [row])

section Stages
variable (row : Fields)

/-- One row is one group, with or without fields. -/
theorem summarize_singleton {aggregates : List Aggregate} (checked : ∀ a ∈ aggregates, a.IsChecked)
    (fields : List String) (row : Value) :
    summarize aggregates fields [row] = [.object (Fields.ofList (summed aggregates fields row))] := by
  have hrecord := Group.record_foldl_takeRow_ofList aggregates fields (fun a mem => (checked a mem).count) row [row]
  exact congrArg (fun record => [record]) hrecord

private theorem apply_summarize {aggregates : List Aggregate} (checked : ∀ a ∈ aggregates, a.IsChecked)
    (fields : List String) :
    ((Stage.summarize aggregates fields).apply (.object row)).outcome.1 =
      .ok (.array [.object (Fields.ofList (summed aggregates fields (.object row)))]) := by
  have hyields : ∃ notes, ((Stage.summarize aggregates fields).apply (.object row)).Yields
      (.ok (.array (summarize aggregates fields [.object row]))) notes :=
    ⟨_, (Reporting.yields_debug _ _).bind (Reporting.yields_pure _)⟩
  obtain ⟨notes, hyields⟩ := hyields
  rw [hyields.outcome, summarize_singleton checked]

private theorem apply_project {assignments : List Assignment} (named : assignments ≠ [⟨"kv", .call .kv []⟩]) :
    ((Stage.project assignments).apply (.object row)).outcome.1 =
      .ok (.object (Fields.ofList (assigned assignments (.object row)))) := by
  have hproject : project assignments (.object row) =
      .ok (.object (Fields.ofList (assigned assignments (.object row)))) := by
    unfold project
    split
    next => exact absurd rfl named
    next => rfl
    next other _ => exact absurd rfl (other row)
  rw [Stage.apply, Stage.mapRecords, hproject]
  · rfl
  · nofun
  · nofun

end Stages

/-- In a pipeline that is read, each summary of an object and each projection of one, but for a sole `kv()`, ends in
one record of the columns that it asks for. -/
theorem isRecordOf_columns {defaults : Delimited.Options} {source : String} {p : Program}
    (accepted : (Program.parse defaults source).outcome.1 = .ok p) (row : Fields) :
    (∀ aggregates fields, .summarize aggregates fields ∈ p.stages →
      ∃ record, ((Stage.summarize aggregates fields).apply (.object row)).outcome.1 = .ok (.array [.object record]) ∧
        IsRecordOf (summed aggregates fields (.object row)) record) ∧
    (∀ assignments, .project assignments ∈ p.stages → assignments ≠ [⟨"kv", .call .kv []⟩] →
      ∃ record, ((Stage.project assignments).apply (.object row)).outcome.1 = .ok (.object record) ∧
        IsRecordOf (assigned assignments (.object row)) record) := by
  have checked := Program.isChecked_of_parse accepted
  constructor
  · intro aggregates fields mem
    exact ⟨_, apply_summarize row (checked _ mem) fields, isRecordOf_ofList _⟩
  · intro assignments _ named
    exact ⟨_, apply_project row named, isRecordOf_ofList _⟩

theorem isRecordOf_columns_distinct :
    ∃ p, (Program.parse .standard "project a | summarize count(), sum(b) by a").outcome.1 = .ok p ∧
      p.stages.map Stage.verb = ["project", "summarize"] ∧ ∀ row,
        (∀ aggregates fields, .summarize aggregates fields ∈ p.stages →
          ∃ record, ((Stage.summarize aggregates fields).apply (.object row)).outcome.1 =
              .ok (.array [.object record]) ∧
            IsRecordOf (summed aggregates fields (.object row)) record) ∧
        (∀ assignments, .project assignments ∈ p.stages → assignments ≠ [⟨"kv", .call .kv []⟩] →
          ∃ record, ((Stage.project assignments).apply (.object row)).outcome.1 = .ok (.object record) ∧
            IsRecordOf (assigned assignments (.object row)) record) := by
  obtain ⟨p, hp, hverbs⟩ := exists_of_map_eq_ok (f := fun p : Program => p.stages.map Stage.verb)
    (x := (Program.parse .standard "project a | summarize count(), sum(b) by a").outcome.1)
    (b := ["project", "summarize"]) (by decide +kernel)
  exact ⟨p, hp, hverbs, isRecordOf_columns hp⟩

private def summaryNames? : Stage → Option (List String × List String)
  | .summarize aggregates fields => some (aggregates.map (·.name), fields)
  | _ => none

private theorem eq_summarize_of_names {stage : Stage} {names fields : List String}
    (h : summaryNames? stage = some (names, fields)) :
    ∃ aggregates, stage = .summarize aggregates fields ∧ aggregates.map (·.name) = names := by
  cases stage with
  | summarize aggregates fields =>
    cases h
    exact ⟨aggregates, rfl, rfl⟩
  | _ => contradiction

/-- Two sums without labels have one name, and only the last of them is in the record. -/
theorem summarize_twoSums :
    ∃ p aggregates record, (Program.parse .standard "summarize sum(a), sum(b)").outcome.1 = .ok p ∧
      p.stages = [.summarize aggregates []] ∧ aggregates.length = 2 ∧
      ((Stage.summarize aggregates []).apply (.object [("a", .ofNat 1), ("b", .ofNat 2)])).outcome.1 =
        .ok (.array [.object record]) ∧ record.length = 1 := by
  obtain ⟨p, hp, hnames⟩ := exists_of_map_eq_ok (f := fun p : Program => p.stages.map summaryNames?)
    (x := (Program.parse .standard "summarize sum(a), sum(b)").outcome.1)
    (b := [some (["sum", "sum"], [])]) (by decide +kernel)
  obtain ⟨stage, hstages, hstage⟩ := List.map_eq_singleton_iff.mp hnames
  obtain ⟨aggregates, rfl, haggregates⟩ := eq_summarize_of_names hstage
  have hlength : aggregates.length = 2 := by simpa using congrArg List.length haggregates
  have checked := Program.isChecked_of_parse hp (.summarize aggregates []) (hstages ▸ List.mem_singleton_self _)
  refine ⟨p, aggregates, _, hp, hstages, hlength, apply_summarize _ checked [], ?_⟩
  have hkeys : (Fields.ofList (summed aggregates [] (.object [("a", .ofNat 1), ("b", .ofNat 2)]))).keys =
      ["sum", "sum"].eraseDups := by
    rw [Fields.keys_ofList, ← haggregates, summed, List.map_nil, List.nil_append, List.map_map]
    rfl
  have hcount := congrArg List.length hkeys
  rw [Fields.keys, List.length_map] at hcount
  exact hcount.trans (by decide)

end Tabulate.Pipeline
