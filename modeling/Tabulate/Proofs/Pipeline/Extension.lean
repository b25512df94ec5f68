import Tabulate.Pipeline.Record
import Tabulate.Proofs.Value.Fields

/-! Columns that are assigned to a record. The record keeps its other fields and the places of all, each
assigned column has its last value, and where all of them are new, dropping them gives the record back. -/
namespace Tabulate.Pipeline

def assignedNames (assignments : List Assignment) : List String := assignments.map Assignment.name

def extended (assignments : List Assignment) (record : Fields) : Fields := assignments.foldl extend.assign record

section Runs
variable {assignments before after : List Assignment} {record : Fields} {key : String}

private theorem extend_object (assignments : List Assignment) (record : Fields) :
    extend assignments (.object record) = .ok (.object (extended assignments record)) := rfl

private theorem extended_append (before after : List Assignment) (record : Fields) :
    extended (before ++ after) record = extended after (extended before record) := List.foldl_append

private theorem assignedNames_append (before after : List Assignment) :
    assignedNames (before ++ after) = assignedNames before ++ assignedNames after := List.map_append

/-- A new name takes its place behind the keys and the new names before it. -/
theorem keys_extended (assignments : List Assignment) (record : Fields) :
    (extended assignments record).keys =
      record.keys ++ ((assignedNames assignments).filter (· ∉ record.keys)).eraseDups := by
  -- Each assignment is made to what those before it left, so the induction is from the end.
  induction assignments using List.reverseRecOn with
  | nil => simp [extended, assignedNames]
  | append_singleton before a ih =>
    have hlast : extended (before ++ [a]) record =
        (extended before record).insert a.name (a.expr.eval (.object (extended before record))) :=
      extended_append before [a] record
    have hnames : assignedNames (before ++ [a]) = assignedNames before ++ [a.name] := assignedNames_append _ _
    rw [hlast, Fields.keys_insert, ih, hnames, List.filter_append]
    by_cases hkey : a.name ∈ record.keys
    · simp [hkey]
    · have hnew : [a.name].filter (· ∉ record.keys) = [a.name] := by simp [hkey]
      rw [hnew, Groups.eraseDups_append_singleton]
      simp only [List.mem_append, List.mem_eraseDups, hkey, false_or]
      split
      next => rfl
      next => rw [List.append_assoc]

/-- What is not assigned stays. -/
theorem get?_extended (other : key ∉ assignedNames assignments) (record : Fields) :
    (extended assignments record).get? key = record.get? key := by
  induction assignments generalizing record with
  | nil => rfl
  | cons a assignments ih =>
    rw [assignedNames, List.map_cons, List.mem_cons, not_or] at other
    have hstep : extended (a :: assignments) record = extended assignments (extend.assign record a) := rfl
    rw [hstep, ih other.2, extend.assign, Fields.get?_insert, if_neg (Ne.symm other.1)]

/-- A column that is not assigned again has the value that it is given. -/
theorem get?_extended_last {a : Assignment} (last : a.name ∉ assignedNames after) (before : List Assignment)
    (record : Fields) : (extended (before ++ a :: after) record).get? a.name =
      some (a.expr.eval (.object (extended before record))) := by
  have hstep : extended (before ++ a :: after) record =
      extended after (extend.assign (extended before record) a) := extended_append before (a :: after) record
  rw [hstep, get?_extended last, extend.assign, Fields.get?_insert, if_pos rfl]

/-- Assignments do not show where their names are left out. -/
theorem filter_extended {p : String → Bool} (h : ∀ name ∈ assignedNames assignments, p name = false)
    (record : Fields) :
    (extended assignments record).filter (fun field => p field.1) = record.filter fun field => p field.1 := by
  induction assignments generalizing record with
  | nil => rfl
  | cons a assignments ih =>
    rw [assignedNames, List.map_cons, List.forall_mem_cons] at h
    have hstep : extended (a :: assignments) record = extended assignments (extend.assign record a) := rfl
    rw [hstep, ih h.2, extend.assign, Fields.filter_insert _ h.1]

/-- Names that are new to a record are dropped without a trace. -/
theorem projectAway_extended {names : List String} (all : ∀ name, name ∈ names ↔ name ∈ assignedNames assignments)
    (new : ∀ name ∈ names, name ∉ record.keys) :
    projectAway names (.object (extended assignments record)) = .object record := by
  have hall : ∀ name ∈ assignedNames assignments, decide (name ∉ names) = false := fun name mem => by
    simpa using (all name).mpr mem
  have hrecord : (record.filter fun field => decide (field.1 ∉ names)) = record := by
    refine List.filter_eq_self.mpr fun field mem => decide_eq_true fun hname => ?_
    exact new field.1 hname (List.mem_map_of_mem mem)
  rw [projectAway, Fields.foldl_erase, filter_extended hall, hrecord]

end Runs

/-- What a record becomes by assignments: its keys keep their order and the new names follow in the order in
which they are first assigned, what is not assigned stays, and each name has the value of its last assignment
for the record as those before it left it. -/
structure IsExtension (assignments : List Assignment) (record result : Fields) : Prop where
  keys : result.keys = record.keys ++ ((assignedNames assignments).filter (· ∉ record.keys)).eraseDups
  kept : ∀ key ∉ assignedNames assignments, result.get? key = record.get? key
  given : ∀ before a after, assignments = before ++ a :: after → a.name ∉ assignedNames after →
    ∃ left, extend before (.object record) = .ok (.object left) ∧
      result.get? a.name = some (a.expr.eval (.object left))

/-- A record is extended by any assignments, and dropping the assigned names gives it back if all are new. -/
theorem extend_isExtension (assignments : List Assignment) (record : Fields) :
    ∃ result, extend assignments (.object record) = .ok (.object result) ∧
      IsExtension assignments record result ∧
      ∀ names : List String, (∀ name, name ∈ names ↔ name ∈ assignedNames assignments) →
        (∀ name ∈ names, name ∉ record.keys) → projectAway names (.object result) = .object record := by
  refine ⟨extended assignments record, extend_object assignments record, ?_, fun _ => projectAway_extended⟩
  refine ⟨keys_extended assignments record, fun _ other => get?_extended other record, ?_⟩
  rintro before a after rfl last
  exact ⟨_, extend_object before record, get?_extended_last last before record⟩

def doubling : List Assignment :=
  let n := Expr.fieldAt "n" [.key "n"]
  [⟨"n", .fieldAt "a" [.key "a"]⟩, ⟨"m", .literal .null⟩, ⟨"n", .call .strcat [n, n]⟩]

/-- A column that is assigned again reads its first value, keeps its place, and goes when it is dropped. -/
theorem extend_isExtension_doubling :
    let record : Fields := [("b", .null), ("a", .string "x")]
    (∀ name, name ∈ ["m", "n"] ↔ name ∈ assignedNames doubling) ∧ (∀ name ∈ ["m", "n"], name ∉ record.keys) ∧
      ∃ result : Fields, extend doubling (.object record) = .ok (.object result) ∧ IsExtension doubling record result ∧
        result.keys = ["b", "a", "n", "m"] ∧ result.get? "n" = some (.string "xx") ∧
        projectAway ["m", "n"] (.object result) = .object record := by
  intro record
  have all : ∀ name, name ∈ ["m", "n"] ↔ name ∈ assignedNames doubling := by
    intro name
    simp only [assignedNames, doubling, List.map_cons, List.map_nil, List.mem_cons, List.not_mem_nil, or_false]
    tauto
  have new : ∀ name ∈ ["m", "n"], name ∉ record.keys := by decide
  obtain ⟨result, hresult, extension, hdropped⟩ := extend_isExtension doubling record
  obtain ⟨left, hleft, hn⟩ := extension.given (doubling.take 2) _ [] rfl List.not_mem_nil
  cases hleft
  exact ⟨all, new, result, hresult, extension, extension.keys.trans (by decide), hn, hdropped _ all new⟩

end Tabulate.Pipeline
