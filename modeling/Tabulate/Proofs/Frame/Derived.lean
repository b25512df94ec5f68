import Tabulate.Frame.Table
import Tabulate.Proofs.Reports
import Tabulate.Proofs.Value.Path

/-! Derived columns: one for each key of the first row, which selects the member under that key. The
selector of a key misses it where the key holds a closing bracket, and where the key stands as it is
and is empty or has blanks around it. -/
namespace Tabulate

def NeedsQuotes (key : String) : Prop :=
  '.' ∈ key.toList ∨ '[' ∈ key.toList ∨ ']' ∈ key.toList ∨ key.toList.head? = some '$'

/-- Whether the selector of a key is read as that key. -/
def IsAddressable (key : String) : Prop :=
  (NeedsQuotes key ∧ ']' ∉ key.toList) ∨
    (¬ NeedsQuotes key ∧ key ≠ "" ∧ Unicode.trim key.toList = key.toList)

instance (key : String) : Decidable (NeedsQuotes key) :=
  inferInstanceAs (Decidable (_ ∨ _ ∨ _ ∨ _))

instance (key : String) : Decidable (IsAddressable key) :=
  inferInstanceAs (Decidable ((_ ∧ _) ∨ (_ ∧ _ ∧ _)))

section Selectors
variable {key : String}

private theorem needsQuotes_iff : (key.toList.any (fun c => c = '.' || c = '[' || c = ']') ||
    key.toList.head? = some '$') = true ↔ NeedsQuotes key := by
  simp [NeedsQuotes, and_or_left, exists_or, or_assoc]

private theorem keySelector_quoted (h : NeedsQuotes key) : keySelector key = "['" ++ key ++ "']" :=
  if_pos (needsQuotes_iff.mpr h)

private theorem keySelector_plain (h : ¬ NeedsQuotes key) : keySelector key = key :=
  if_neg (mt needsQuotes_iff.mp h)

private theorem ofText_quoted (h : NeedsQuotes key) :
    Path.ofText (keySelector key) = Path.split [] none ('[' :: '\'' :: (key.toList ++ ['\'', ']'])) := by
  have htext : (keySelector key).toList = '[' :: '\'' :: (key.toList ++ ['\'', ']']) := by
    rw [keySelector_quoted h]
    simp
  have hlast : ('[' :: '\'' :: (key.toList ++ ['\'', ']'])).getLast? = some ']' := by
    simp [List.getLast?_cons]
  have htrim := Unicode.trim_of_solid rfl hlast (by decide) (by decide +kernel)
  rw [Path.ofText, htext, htrim, Path.withoutRoot_of_head (by simp)]

private theorem ofText_plain (h : ¬ NeedsQuotes key) : Path.ofText (keySelector key) =
    Path.flush (Path.withoutRoot (Unicode.trim key.toList)).reverse := by
  have hplain : ∀ c ∈ Path.withoutRoot (Unicode.trim key.toList), c ≠ '.' ∧ c ≠ '[' := by
    intro c hc
    have hkey : c ∈ key.toList :=
      (Unicode.trim_sublist _).mem ((Path.withoutRoot_sublist _).mem hc)
    refine ⟨?_, ?_⟩
    · rintro rfl
      exact h (.inl hkey)
    · rintro rfl
      exact h (.inr (.inl hkey))
  rw [keySelector_plain h, Path.ofText, Path.split_plain hplain, List.append_nil]

/-- The selector of an addressable key is one step, to that key. -/
theorem ofText_keySelector (h : IsAddressable key) : Path.ofText (keySelector key) = [.key key] := by
  rcases h with ⟨quotes, open'⟩ | ⟨plain, some, solid⟩
  · have hquoted : '[' :: '\'' :: (key.toList ++ ['\'', ']']) =
        '[' :: (('\'' :: (key.toList ++ ['\''])) ++ ']' :: []) := by
      simp
    have hinner : ']' ∉ '\'' :: (key.toList ++ ['\'']) := by simp [open']
    rw [ofText_quoted quotes, hquoted, Path.split_brackets hinner, PathStep.ofBrackets?_quoted,
      String.ofList_toList]
    rfl
  · have hroot : key.toList.head? ≠ Option.some '$' := fun h => plain (.inr (.inr (.inr h)))
    have hsome : key.toList ≠ [] := fun h => some (String.toList_eq_nil_iff.mp h)
    rw [ofText_plain plain, solid, Path.withoutRoot_of_head hroot, Path.flush, if_neg (by simpa using hsome),
      List.reverse_reverse, String.ofList_toList]

/-- The selector of another key takes no step, or a first step to a key that it is not. -/
theorem ofText_keySelector_of_not (h : ¬ IsAddressable key) : Path.ofText (keySelector key) = [] ∨
    ∃ name rest, Path.ofText (keySelector key) = .key name :: rest ∧ name ≠ key := by
  by_cases quotes : NeedsQuotes key
  · refine .inr ?_
    have hclosed : ']' ∈ key.toList := by
      by_contra hopen
      exact h (.inl ⟨quotes, hopen⟩)
    obtain ⟨before, after, hkey, hbefore⟩ := List.eq_append_cons_of_mem hclosed
    obtain ⟨name, hstep, hname⟩ := PathStep.ofBrackets?_quote before
    have htext : '[' :: '\'' :: (key.toList ++ ['\'', ']']) =
        '[' :: (('\'' :: before) ++ ']' :: (after ++ ['\'', ']'])) := by
      simp [hkey]
    have hinner : ']' ∉ '\'' :: before := by simp [hbefore]
    refine ⟨String.ofList name, Path.split [] none (after ++ ['\'', ']']), ?_, ?_⟩
    · rw [ofText_quoted quotes, htext, Path.split_brackets hinner, hstep]
      rfl
    · rintro rfl
      rw [String.toList_ofList] at hclosed
      exact hinner (hname hclosed)
  · rw [ofText_plain quotes]
    have hsub := Path.withoutRoot_sublist (Unicode.trim key.toList)
    generalize Path.withoutRoot (Unicode.trim key.toList) = left at hsub
    by_cases hnil : left = []
    · rw [hnil]
      exact .inl rfl
    · refine .inr ⟨String.ofList left, [], ?_, ?_⟩
      · rw [Path.flush, if_neg (by simpa using hnil), List.reverse_reverse]
      · rintro rfl
        rw [String.toList_ofList] at hsub
        have hsolid := (Unicode.trim_sublist left).antisymm hsub
        refine h (.inr ⟨quotes, fun hempty => hnil ?_, ?_⟩)
        · rw [← String.toList_ofList (l := left), hempty, String.toList_empty]
        · rw [String.toList_ofList, hsolid]

/-- The selector of a key finds the member of every object under that key if the key is addressable,
and only then. -/
theorem resolve_keySelector_iff : (∀ fields : Fields,
    (Value.object fields).resolve (keySelector key) = (Fields.get? fields key).getD .null) ↔
      IsAddressable key := by
  constructor
  · intro h
    by_contra hkey
    have hmember := h [(key, .bool true)]
    have hget : Fields.get? [(key, .bool true)] key = some (.bool true) := by simp [Fields.get?]
    rw [hget, Value.resolve] at hmember
    rcases ofText_keySelector_of_not hkey with hnil | ⟨name, rest, hstep, hname⟩
    · rw [hnil] at hmember
      cases hmember
    · have hmiss : Value.step? (.object [(key, .bool true)]) (.key name) = none := by
        simp [Value.step?, Fields.get?, List.lookup_cons, beq_eq_false_iff_ne.mpr hname]
      rw [hstep, Value.at?, List.foldlM_cons, hmiss] at hmember
      cases hmember
  · intro h fields
    rw [Value.resolve, ofText_keySelector h, Value.at?, List.foldlM_cons]
    simp only [List.foldlM_nil, Value.step?, bind_pure]

end Selectors

namespace Table
variable {ε : Type} (name : String)

private theorem name_derived (key : String) (format : ColumnFormat) :
    (⟨keySelector key, key, format, none⟩ : Column).name = key := by
  unfold Column.name
  split
  next h =>
    have hblank : ∀ c ∈ key.toList, Unicode.isBlank c := List.all_eq_true.mp h
    refine keySelector_plain ?_
    rintro (hc | hc | hc | hc)
    · exact absurd (hblank _ hc) (by decide)
    · exact absurd (hblank _ hc) (by decide)
    · exact absurd (hblank _ hc) (by decide)
    · exact absurd (hblank _ (List.mem_of_head? hc)) (by decide)
  next => rfl

private theorem formatOf_eq (v : Value) :
    formatOf v = if v.asNumber?.isSome then .number else .string := by
  cases v <;> rfl

private theorem derivedColumns_object (first : Fields) (more : List Fields) :
    derivedColumns ((first :: more).map .object) =
      first.map fun member => ⟨keySelector member.1, member.1, formatOf member.2, none⟩ := rfl

/-- The columns of a table are those that are given, or else derived ones. Its warnings come first,
one for each column that needs one. -/
theorem ofRows_yields_assemble (columns : List Column) (rows : List Value) :
    ∃ used note, used = (if columns.isEmpty then derivedColumns rows else columns) ∧
      (ofRows name columns rows : Reporting ε Table).Yields (.ok (assemble name used rows))
        (Journal.warned (used.filterMap (·.warning? rows)) ++ [⟨.debug, .table, note⟩]) :=
  ⟨_, _, rfl, (Reporting.yields_warnEach _).bind
    ((Reporting.yields_debug _ _).bind (Reporting.yields_pure _))⟩

/-- Without columns, a table of objects has a column for each key of the first one, in order and with
its name, of numbers where the member is a number. The cells of the column of an addressable key are
the members of all rows under that key, and the selectors of no other keys find their members. -/
theorem ofRows_derived (first : Fields) (more : List Fields) :
    ∃ table journal, (ofRows name [] ((first :: more).map .object) : Reporting ε Table).outcome =
        (.ok table, journal) ∧
      table.columns = first.map (fun member =>
        (member.1, if member.2.asNumber?.isSome then .number else .string)) ∧
      (∀ row ∈ table.rows, row.length = first.length) ∧
      (∀ (j : Nat) (key : String) (v : Value), first[j]? = some (key, v) → IsAddressable key →
        table.rows.map (·[j]?) = (first :: more).map fun row => some
          (((Fields.get? row key).getD .null).toCell
            (if v.asNumber?.isSome then .number else .string) none)) ∧
      ∀ key, (∀ row : Fields,
        (Value.object row).resolve (keySelector key) = (Fields.get? row key).getD .null) ↔
          IsAddressable key := by
  obtain ⟨used, note, hUsed, hYields⟩ :=
    ofRows_yields_assemble (ε := ε) name [] ((first :: more).map .object)
  obtain rfl : used = derivedColumns ((first :: more).map .object) := hUsed
  refine ⟨_, _, hYields.outcome, ?_, ?_, fun j key v hmember haddress => ?_,
    fun key => resolve_keySelector_iff⟩
  · rw [assemble, derivedColumns_object, List.map_map]
    refine List.map_congr_left fun member _ => ?_
    simp only [Function.comp_apply, name_derived, formatOf_eq]
    split <;> rfl
  · intro row hrow
    obtain ⟨_, -, rfl⟩ := List.mem_map.mp hrow
    rw [derivedColumns_object, List.length_map, List.length_map]
  · rw [assemble, derivedColumns_object, List.map_map, List.map_map]
    refine List.map_congr_left fun row _ => ?_
    have hselect := resolve_keySelector_iff.mpr haddress row
    simp only [Function.comp_apply, List.getElem?_map, hmember, Option.map_some, Column.cellOf,
      Column.select, hselect, formatOf_eq]

def markedRows : List Fields := [[("a.b", .number 1), ("$x", .string "u")], [("$x", .bool true)]]

theorem ofRows_derived_marked : (∀ key ∈ ["a.b", "$x"], IsAddressable key) ∧
    ∃ table journal, (ofRows "" [] (markedRows.map .object) : Reporting Empty Table).outcome =
        (.ok table, journal) ∧
      table.columns = [("a.b", .number), ("$x", .string)] ∧
      table.rows.map (·[0]?) = [some (.number 1), some .null] ∧
      table.rows.map (·[1]?) = [some (.string "u"), some (.string "true")] := by
  have addressable : ∀ key ∈ ["a.b", "$x"], IsAddressable key := by decide +kernel
  obtain ⟨table, journal, hTable, hColumns, -, hCells, -⟩ := ofRows_derived (ε := Empty) ""
    [("a.b", .number 1), ("$x", .string "u")] [[("$x", .bool true)]]
  refine ⟨addressable, table, journal, hTable, hColumns, ?_, ?_⟩
  · rw [hCells 0 "a.b" (.number 1) rfl (addressable _ (by simp))]
    decide +kernel
  · rw [hCells 1 "$x" (.string "u") rfl (addressable _ (by simp))]
    decide +kernel

/-- A key with a closing bracket, such as that of a member of a list, makes a column of nulls. -/
theorem ofRows_derived_bracket : ∃ table journal,
    (ofRows "" [] [.object [("items[0]", .number 1)]] : Reporting Empty Table).outcome =
        (.ok table, journal) ∧
      table.columns = [("items[0]", .number)] ∧ table.rows = [[.null]] ∧
      (Value.number 1).toCell .number none = .number 1 :=
  ⟨_, _, rfl, by decide +kernel, by decide +kernel, by decide +kernel⟩

end Table
end Tabulate
