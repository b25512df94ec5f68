import Mathlib.Data.List.Nodup
import Tabulate.Proofs.Delimited.Accounting
import Tabulate.Proofs.Number.Digits
import Tabulate.Proofs.Value.Fields

/-! Which keys the rows of a text have. Where there are names for the fields, a record of another width is
faulty and all rows have the same keys; where there are none, each row has as many as its record has fields. -/
namespace Tabulate.Delimited

def columnNames (count : Nat) : List String := (List.range count).map fun i => s!"column_{i}"

private theorem nodup_columnNames (count : Nat) : (columnNames count).Nodup := by
  refine List.Nodup.map (fun i j h => ?_) List.nodup_range
  have htext : "column_" ++ Nat.repr i = "column_" ++ Nat.repr j := h
  have hdigits := congrArg String.toList htext
  rw [String.toList_append, String.toList_append, Nat.toList_repr, Nat.toList_repr] at hdigits
  exact toDigits_injective (List.append_cancel_left hdigits)

section Keys
variable {names fields : List String}

/-- Each field has its name, and fields of one name have one key. -/
theorem keys_rowOf (names : Option (List String)) (fields : List String) :
    (rowOf names fields).keys =
      ((List.range fields.length).map fun i => (names.bind (·[i]?)).getD s!"column_{i}").eraseDups := by
  rw [rowOf, Fields.keys_ofList, List.map_map, List.range_eq_range', ← List.zipIdx_map_snd 0 fields, List.map_map]
  rfl

private theorem keys_rowOf_some (h : names.length = fields.length) :
    (rowOf (some names) fields).keys = names.eraseDups := by
  rw [keys_rowOf]
  refine congrArg List.eraseDups (List.ext_getElem (by simp [h]) fun i _ hi => ?_)
  simp [hi]

private theorem keys_rowOf_none (fields : List String) : (rowOf none fields).keys = columnNames fields.length := by
  rw [keys_rowOf]
  exact Groups.eraseDups_of_nodup (nodup_columnNames _)

end Keys

def Fate.fields? : Fate → Option Fields
  | row fields => some fields
  | header | blank | faulty _ => none

section Rows
variable {o : Options} {names : Option (List String)} {rs : List Record} {fates : List Fate} {fields : Fields}

private theorem filterMap_row? (fates : List Fate) :
    fates.filterMap Fate.row? = (fates.filterMap Fate.fields?).map .object := by
  rw [List.map_filterMap]
  congr 1
  funext fate
  cases fate <;> rfl

private theorem mem_of_mem_fields? (h : fields ∈ fates.filterMap Fate.fields?) : .row fields ∈ fates := by
  obtain ⟨fate, mem, hfields⟩ := List.mem_filterMap.mp h
  cases fate with
  | row => exact Option.some.inj hfields ▸ mem
  | header | blank | faulty => cases hfields

/-- Each fate is justified by a record. -/
theorem exists_justifies {fate : Fate} (h : List.Forall₂ (Justifies o names) rs fates) (mem : fate ∈ fates) :
    ∃ r ∈ rs, Justifies o names r fate := by
  induction h with
  | nil => contradiction
  | @cons r first rs fates justified _ ih =>
    rcases List.mem_cons.mp mem with rfl | mem
    · exact ⟨r, List.mem_cons_self, justified⟩
    · obtain ⟨other, hother, justified⟩ := ih mem
      exact ⟨other, List.mem_cons_of_mem _ hother, justified⟩

/-- Where the width of a record counts, the names are the keys of its row. -/
theorem keys_of_justifies {r : Record} (strict : o.relaxColumnCount = false) (h : Justifies o names r (.row fields)) :
    (∀ known, names = some known → fields.keys = known.eraseDups) ∧
      (names = none → fields.keys = columnNames r.fields.length) := by
  obtain ⟨-, rfl, hwidth⟩ := h
  constructor
  · rintro known rfl
    exact keys_rowOf_some ((hwidth known rfl).resolve_left (by simp [strict]))
  · rintro rfl
    exact keys_rowOf_none _

/-- Where names are given or a header comes first, a row has names. -/
theorem exists_namesOf (accounts : Accounts o rs fates) (mem : .row fields ∈ fates)
    (named : o.hasHeader = true ∨ o.headers ≠ []) :
    ∃ known, namesOf (Progress.start o).names rs fates = some known := by
  cases hgiven : (Progress.start o).names with
  | some known => exact ⟨known, rfl⟩
  | none =>
    have hheader : o.hasHeader = true := by
      refine named.resolve_right fun hheaders => ?_
      simp [Progress.start, hheaders] at hgiven
    obtain ⟨before, after, hsplit⟩ := List.append_of_mem mem
    have hone := accounts.afterHeader hheader before _ after hsplit (.inr ⟨fields, rfl⟩)
    obtain ⟨fate, hfate, isHeader⟩ := List.countP_pos_iff.mp (Nat.lt_of_lt_of_eq Nat.one_pos hone.symm)
    -- The header stands in the pairs of records and fates, so one is found there.
    have hpairs : (rs.zip fates).map Prod.snd = fates := List.map_snd_zip (Nat.le_of_eq accounts.each.length_eq.symm)
    have hmem : fate ∈ (rs.zip fates).map Prod.snd := by
      rw [hpairs, hsplit]
      exact List.mem_append_left _ hfate
    obtain ⟨pair, hpair, rfl⟩ := List.mem_map.mp hmem
    have hfound : ((rs.zip fates).find? fun p => p.2.isHeader).isSome := List.find?_isSome.mpr ⟨pair, hpair, isHeader⟩
    obtain ⟨found, hfound⟩ := Option.isSome_iff_exists.mp hfound
    exact ⟨headerNames found.1, by rw [namesOf, hfound]; rfl⟩

end Rows

/-- Of a text that is read without relaxing the count of columns, all rows have the same keys if there are names
for them, which are the given ones or those of a header. Else each row has the keys of the fields of its record. -/
theorem read_rectangular {o : Options} (strict : o.relaxColumnCount = false) {text : String} {v : Value}
    (h : (read o text).outcome.1 = .ok v) :
    ∃ rows : List Fields, v = .array (rows.map .object) ∧
      (o.hasHeader = true ∨ o.headers ≠ [] →
        ∃ names, (o.headers ≠ [] → names = o.headers) ∧ ∀ row ∈ rows, row.keys = names.eraseDups) ∧
      (o.hasHeader = false → o.headers = [] →
        ∀ row ∈ rows, ∃ r ∈ records o.dialect text.toList, row.keys = columnNames r.fields.length) := by
  have accounts := accounts_fatesFrom o (records o.dialect text.toList)
  have hrows := rows_of_read_ok h
  rw [filterMap_row?] at hrows
  generalize fatesFrom o (.start o) (records o.dialect text.toList) = fates at accounts hrows
  refine ⟨_, hrows, fun named => ?_, fun hheader hheaders row mem => ?_⟩
  · refine ⟨(namesOf (Progress.start o).names (records o.dialect text.toList) fates).getD o.headers, ?_, ?_⟩
    · intro hheaders
      have hgiven : (Progress.start o).names = some o.headers := by simp [Progress.start, hheaders]
      rw [hgiven]
      rfl
    · intro row mem
      have hrow := mem_of_mem_fields? mem
      obtain ⟨known, hknown⟩ := exists_namesOf accounts hrow named
      obtain ⟨r, -, justified⟩ := exists_justifies accounts.each hrow
      rw [hknown, Option.getD_some]
      exact (keys_of_justifies strict justified).1 known hknown
  · obtain ⟨r, hr, justified⟩ := exists_justifies accounts.each (mem_of_mem_fields? mem)
    have hgiven : (Progress.start o).names = none := by simp [Progress.start, hheaders]
    have hnone := namesOf_settled (Progress.start o).names (records o.dialect text.toList)
      (accounts.noHeader (by simp [hheader]))
    exact ⟨r, hr, (keys_of_justifies strict justified).2 (hnone.trans hgiven)⟩

/-- A header that has a name twice gives the rows a key less. -/
theorem read_rectangular_repeated :
    let o := Options.standard
    let rows : List Fields := [[("a", .string "2"), ("b", .null)], [("a", .string "4"), ("b", .string "5")]]
    o.relaxColumnCount = false ∧ (read o "a,a,b\n1,2,\n3,4,5").outcome.1 = .ok (.array (rows.map .object)) ∧
      ∃ names : List String, ∀ row ∈ rows, row.keys = names.eraseDups := by
  intro o rows
  have hread : (read o "a,a,b\n1,2,\n3,4,5").outcome.1 = .ok (.array (rows.map .object)) := rfl
  obtain ⟨found, hrows, hnamed, -⟩ := read_rectangular (o := o) rfl hread
  have hfound : rows = found :=
    List.map_injective_iff.mpr (fun _ _ => Value.object.inj) (Value.array.inj hrows)
  obtain ⟨names, -, hkeys⟩ := hnamed (.inl rfl)
  exact ⟨rfl, hread, names, hfound ▸ hkeys⟩

/-- Without a header and names, two records of different widths are read, and their rows have different keys. -/
theorem read_headerless_ragged :
    let o := { Options.standard with hasHeader := false }
    o.relaxColumnCount = false ∧ o.skipFaultyLines = false ∧
      (read o "a,b\n1").outcome.1 = .ok (.array
        [.object [("column_0", .string "a"), ("column_1", .string "b")], .object [("column_0", .string "1")]]) ∧
      Fields.keys [("column_0", .string "a"), ("column_1", .string "b")] ≠ Fields.keys [("column_0", .string "1")] := by
  exact ⟨rfl, rfl, rfl, by decide⟩

end Tabulate.Delimited
