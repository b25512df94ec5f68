import Tabulate.Pipeline.Record
import Tabulate.Proofs.Outcomes
import Tabulate.Proofs.Value.Fields

/-! Records that are expanded at a path: one for each item of the array that the path leads to. The item
is written where it was read if each step of the path is of the kind of the value it is taken from;
otherwise the records are copies of the row. All other members of the row stay as they are. -/
namespace Tabulate

namespace Value

private theorem at?_cons (v : Value) (step : PathStep) (path : Path) :
    v.at? (step :: path) = (v.step? step).bind fun w => w.at? path := rfl

/-- Only what stands at the end of a path resolves to something other than null. -/
theorem at?_of_resolve {v found : Value} {selector : String} (h : v.resolve selector = found)
    (present : found ≠ null) : v.at? (Path.ofText selector) = some found := by
  rw [resolve] at h
  cases hat : v.at? (Path.ofText selector) with
  | none => exact absurd (by rw [← h, hat, Option.getD_none]) present
  | some w => rw [← h, hat, Option.getD_some]

end Value

namespace Pipeline
open Value (at?_cons)

section Fields
variable {fields : Fields} {name key : String}

private theorem changeField_cons (f : Value → Value) (field : String × Value) (rest : Fields) :
    changeField name f (field :: rest) =
      if field.1 = name then (field.1, f field.2) :: rest else field :: changeField name f rest := rfl

private theorem keys_changeField (f : Value → Value) :
    Fields.keys (changeField name f fields) = Fields.keys fields := by
  induction fields with
  | nil => rfl
  | cons field rest ih =>
    rw [changeField_cons]
    split
    next => rfl
    next => exact congrArg (field.1 :: ·) ih

private theorem get?_changeField_self (f : Value → Value) :
    Fields.get? (changeField name f fields) name = (Fields.get? fields name).map f := by
  induction fields with
  | nil => rfl
  | cons field rest ih =>
    rw [changeField_cons, Fields.get?_cons]
    split
    next h => rw [Fields.get?_cons, if_pos h, Option.map_some]
    next h => rw [Fields.get?_cons, if_neg h, ih]

private theorem get?_changeField_of_ne (h : key ≠ name) (f : Value → Value) :
    Fields.get? (changeField name f fields) key = Fields.get? fields key := by
  induction fields with
  | nil => rfl
  | cons field rest ih =>
    rw [changeField_cons, Fields.get?_cons]
    split
    next hname => rw [Fields.get?_cons, if_neg (hname ▸ h.symm), if_neg (hname ▸ h.symm)]
    next => rw [Fields.get?_cons, ih]

/-- A change that leaves the value of a key alone leaves the fields alone. -/
theorem changeField_of_fixed {f : Value → Value} {v : Value} (h : Fields.get? fields name = some v)
    (fixed : f v = v) : changeField name f fields = fields := by
  induction fields with
  | nil => contradiction
  | cons field rest ih =>
    rw [Fields.get?_cons] at h
    rw [changeField_cons]
    split at h
    next hname =>
      obtain rfl := Option.some.inj h
      rw [if_pos hname, fixed]
    next hname => rw [if_neg hname, ih h]

/-- A key that is present gets its value in place. -/
theorem insert_eq_changeField {v : Value} (h : Fields.get? fields name = some v) (value : Value) :
    Fields.insert fields name value = changeField name (fun _ => value) fields := by
  induction fields with
  | nil => contradiction
  | cons field rest ih =>
    rw [Fields.get?_cons] at h
    rw [changeField_cons, Fields.insert]
    split
    next => rfl
    next hname => rw [ih (by rwa [if_neg hname] at h)]

end Fields

/-- A change that leaves the item at a position alone leaves the items alone. -/
theorem modify_of_fixed {items : List Value} {position : Nat} {f : Value → Value} {v : Value}
    (h : items[position]? = some v) (fixed : f v = v) : items.modify position f = items := by
  refine List.ext_getElem? fun i => ?_
  by_cases hi : position = i
  · subst hi
    rw [List.getElem?_modify_eq, h, Option.map_eq_map, Option.map_some, fixed]
  · rw [List.getElem?_modify_ne f items hi]

/-- Whether a path leads through a value by keys of objects and by indices of arrays only. Reading
also takes a key of digits as the index of an array, and an index as a key of an object. -/
def IsDirect : Path → Value → Prop
  | [], _ => True
  | .key name :: rest, .object fields => ∃ v, Fields.get? fields name = some v ∧ IsDirect rest v
  | .index position :: rest, .array items => ∃ v, items[position]? = some v ∧ IsDirect rest v
  | _ :: _, _ => False

/-- What a value becomes by writing at the end of a path; behind no step it is what is written. -/
def written (path : Path) (value target : Value) : Value :=
  if path.isEmpty then value else writeAt path value target

section Writing
variable {path : Path} {target found : Value}

/-- Writing behind a key that is present changes its value in place. -/
theorem writeAt_key {fields : Fields} {name : String} {v : Value} (h : Fields.get? fields name = some v)
    (path : Path) (value : Value) : writeAt (.key name :: path) value (.object fields) =
      .object (changeField name (written path value) fields) := by
  cases path with
  | nil => exact congrArg Value.object (insert_eq_changeField h value)
  | cons => rfl

private theorem writeAt_index (position : Nat) (path : Path) (value : Value) (items : List Value) :
    writeAt (.index position :: path) value (.array items) =
      .array (items.modify position (written path value)) := by
  cases path <;> rfl

/-- What is written behind a direct path is read there. -/
theorem at?_written (direct : IsDirect path target) (value : Value) :
    (written path value target).at? path = some value := by
  induction path generalizing target with
  | nil => rfl
  | cons step path ih =>
    cases step with
    | key name =>
      cases target with
      | object fields =>
        obtain ⟨v, hv, direct⟩ := direct
        refine (congrArg (Value.at? · _) (writeAt_key hv path value)).trans ?_
        rw [at?_cons, Value.step?, get?_changeField_self, hv]
        exact ih direct
      | _ => exact direct.elim
    | index position =>
      cases target with
      | array items =>
        obtain ⟨v, hv, direct⟩ := direct
        refine (congrArg (Value.at? · _) (writeAt_index position path value items)).trans ?_
        rw [at?_cons, Value.step?, List.getElem?_modify_eq, hv]
        exact ih direct
      | _ => exact direct.elim

/-- Where reading takes a step of another kind than the value, nothing is written. -/
theorem written_of_not_direct (h : target.at? path = some found) (indirect : ¬ IsDirect path target)
    (value : Value) : written path value target = target := by
  induction path generalizing target with
  | nil => exact absurd trivial indirect
  | cons step path ih =>
    rw [at?_cons] at h
    obtain ⟨v, hv, hfound⟩ := Option.bind_eq_some_iff.mp h
    cases step with
    | key name =>
      cases target with
      | object fields =>
        have hrest : ¬ IsDirect path v := fun direct => indirect ⟨v, hv, direct⟩
        exact (writeAt_key hv path value).trans
          (congrArg Value.object (changeField_of_fixed hv (ih hfound hrest)))
      | _ => cases path <;> rfl
    | index position =>
      cases target with
      | array items =>
        have hrest : ¬ IsDirect path v := fun direct => indirect ⟨v, hv, direct⟩
        exact (writeAt_index position path value items).trans
          (congrArg Value.array (modify_of_fixed hv (ih hfound hrest)))
      | _ => cases path <;> rfl

end Writing

/-- What the records of one row keep of it. They have its keys in their order, and its members apart
from the one that the path starts at. -/
def Keeps (path : Path) (row record : Value) : Prop :=
  ∃ fields members, row = .object fields ∧ record = .object members ∧
    Fields.keys members = Fields.keys fields ∧
    ∀ key, path.head? ≠ some (.key key) → Fields.get? members key = Fields.get? fields key

/-- The records of one row: one for each item of the array at the path, or the row itself. -/
structure IsBlock (path : Path) (row : Value) (block : List Value) : Prop where
  expanded {items : List Value} : row.at? path = some (.array items) → block.length = items.length
  passed : (∀ items, row.at? path ≠ some (.array items)) → block = [row]
  keeps : ∀ record ∈ block, Keeps path row record

section Blocks
variable {path : Path} {fields : Fields}

private theorem keeps_refl (path : Path) (fields : Fields) : Keeps path (.object fields) (.object fields) :=
  ⟨fields, fields, rfl, rfl, rfl, fun _ _ => rfl⟩

private theorem keeps_writeAt {found : Value} (h : (Value.object fields).at? path = some found)
    (value : Value) : Keeps path (.object fields) (writeAt path value (.object fields)) := by
  cases path with
  | nil => exact keeps_refl [] fields
  | cons step path =>
    cases step with
    | key name =>
      obtain ⟨v, hv, -⟩ := Option.bind_eq_some_iff.mp (at?_cons _ _ _ ▸ h)
      refine ⟨fields, _, rfl, writeAt_key hv path value, keys_changeField _, fun key hkey => ?_⟩
      exact get?_changeField_of_ne (fun heq => hkey (by rw [heq, List.head?_cons])) _
    | index position => cases path <;> exact keeps_refl _ fields

private theorem exists_block (path : Path) (fields : Fields) :
    ∃ block, expandRow path (.object fields) = .ok block ∧ IsBlock path (.object fields) block := by
  rw [expandRow]
  split
  next items h =>
    refine ⟨_, rfl, fun h' => ?_, fun passed => absurd h (passed items), fun record hmem => ?_⟩
    · rw [h] at h'
      cases h'
      exact List.length_map _
    · obtain ⟨item, -, rfl⟩ := List.mem_map.mp hmem
      exact keeps_writeAt h item
  next hno =>
    refine ⟨_, rfl, fun h => absurd h (hno _), fun _ => rfl, fun record hmem => ?_⟩
    obtain rfl := List.mem_singleton.mp hmem
    exact keeps_refl path fields

end Blocks

section Rows
variable {field : String}

private theorem mvExpand_eq (h : Path.ofText field ≠ []) (rows : List Value) :
    mvExpand field rows = (rows.mapM (expandRow (Path.ofText field))).map List.flatten := by
  rw [mvExpand, List.isEmpty_eq_false_iff.mpr h]
  rfl

private theorem expandRow_of_isSome {row : Value} (path : Path) (h : row.asFields?.isSome) :
    ∃ block, expandRow path row = .ok block ∧ IsBlock path row block := by
  cases row with
  | object fields => exact exists_block path fields
  | _ => contradiction

private theorem expandRow_of_isNone {row : Value} (path : Path) (h : row.asFields?.isNone) :
    expandRow path row = .error (.notRecord "mv-expand" row.typeName) := by
  cases row with
  | object fields => contradiction
  | _ => rfl

end Rows

/-- Rows are expanded to one block for each, in their order; the first row that is no record is a
fault of the whole, without a result. -/
theorem mvExpand_blocks {field : String} (h : Path.ofText field ≠ []) (rows : List Value) :
    (∀ row, rows.find? (·.asFields?.isNone) = some row →
      mvExpand field rows = .error (.notRecord "mv-expand" row.typeName)) ∧
    ((∀ row ∈ rows, row.asFields?.isSome) → ∃ blocks, mvExpand field rows = .ok blocks.flatten ∧
      List.Forall₂ (IsBlock (Path.ofText field)) rows blocks) := by
  rw [mvExpand_eq h]
  refine ⟨fun row hrow => ?_, fun records => ?_⟩
  · obtain ⟨hnone, before, after, rfl, hbefore⟩ := List.find?_eq_some_iff_append.mp hrow
    have hblocks : ∀ r ∈ before, ∃ block, expandRow (Path.ofText field) r = .ok block := by
      intro r hr
      have hsome : r.asFields?.isSome := by simpa using hbefore r hr
      obtain ⟨block, hblock, -⟩ := expandRow_of_isSome (Path.ofText field) hsome
      exact ⟨block, hblock⟩
    rw [mapM_append_error hblocks (expandRow_of_isNone _ hnone)]
    rfl
  · obtain ⟨blocks, hblocks, hrows⟩ := exists_mapM_eq_ok fun row hrow =>
      expandRow_of_isSome (Path.ofText field) (records row hrow)
    exact ⟨blocks, by rw [hblocks]; rfl, hrows⟩

def shops : List Value :=
  [.object [("name", .string "tea house"), ("goods", .object [("box", .array [.string "green", .null])])],
    .object [("goods", .object [("box", .string "see list")]), ("name", .string "stall")],
    .object [("goods", .object [("box", .array [])]), ("open", .bool true)]]

theorem mvExpand_blocks_shops :
    Path.ofText "goods.box" ≠ [] ∧ (∀ row ∈ shops, row.asFields?.isSome) ∧
      (∃ blocks, mvExpand "goods.box" shops = .ok blocks.flatten ∧ blocks.map List.length = [2, 1, 0] ∧
        List.Forall₂ (IsBlock (Path.ofText "goods.box")) shops blocks) ∧
      mvExpand "goods.box" (shops ++ [.bool true, .null]) =
        .error (.notRecord "mv-expand" "boolean") := by
  have hpath : Path.ofText "goods.box" = [.key "goods", .key "box"] := by decide +kernel
  have hne : Path.ofText "goods.box" ≠ [] := by rw [hpath]; exact List.cons_ne_nil _ _
  have records : ∀ row ∈ shops, row.asFields?.isSome := by simp [shops, Value.asFields?]
  refine ⟨hne, records, ?_, (mvExpand_blocks hne _).1 (.bool true) rfl⟩
  obtain ⟨blocks, hblocks, hrows⟩ := (mvExpand_blocks hne shops).2 records
  refine ⟨blocks, hblocks, ?_, hrows⟩
  rw [hpath] at hrows
  cases hrows with
  | cons first hrows =>
    cases hrows with
    | cons second hrows =>
      cases hrows with
      | cons third hrows =>
        cases hrows
        rw [List.map_cons, first.expanded rfl, List.map_cons, second.passed (fun _ => nofun),
          List.map_cons, third.expanded rfl]
        rfl

/-- Rows with an array at a path are expanded to as many records as it has items, and reading at the
path finds the items in them, one by one, if the path is direct. If it is not, the records are copies
of the row. -/
theorem resolve_mvExpand {field : String} {fields : Fields} {items : List Value}
    (h : (Value.object fields).resolve field = .array items) :
    ∃ records, mvExpand field [.object fields] = .ok records ∧ records.length = items.length ∧
      (IsDirect (Path.ofText field) (.object fields) → records.map (·.resolve field) = items) ∧
      (¬ IsDirect (Path.ofText field) (.object fields) →
        records = List.replicate items.length (.object fields)) := by
  have hfound := Value.at?_of_resolve h nofun
  have hpath : Path.ofText field ≠ [] := fun heq => by
    rw [heq] at hfound
    nomatch hfound
  have hwritten : ∀ value, writeAt (Path.ofText field) value (.object fields) =
      written (Path.ofText field) value (.object fields) := fun value => by
    rw [written, List.isEmpty_eq_false_iff.mpr hpath]
    rfl
  refine ⟨items.map fun item => written (Path.ofText field) item (.object fields), ?_,
    List.length_map _, fun direct => ?_, fun indirect => ?_⟩
  · rw [mvExpand_eq hpath, List.mapM_cons, expandRow, hfound]
    simp only [hwritten]
    exact congrArg Except.ok (List.append_nil _)
  · rw [List.map_map]
    refine (List.map_congr_left fun item _ => ?_).trans (List.map_id _)
    rw [Function.comp_apply, Value.resolve, at?_written direct, Option.getD_some, id]
  · rw [List.map_congr_left fun item _ => written_of_not_direct hfound indirect item,
      List.map_const']

def partsOrder : Value :=
  .object [("id", .number 7), ("parts", .array [.object [("lines", .array [.null, .string "b"])]])]

theorem resolve_mvExpand_lines :
    partsOrder.resolve "parts[0].lines" = .array [.null, .string "b"] ∧
      IsDirect (Path.ofText "parts[0].lines") partsOrder ∧
      ∃ records, mvExpand "parts[0].lines" [partsOrder] = .ok records ∧
        records.map (·.resolve "parts[0].lines") = [.null, .string "b"] := by
  have hpath : Path.ofText "parts[0].lines" = [.key "parts", .index 0, .key "lines"] := by
    decide +kernel
  have hresolve : partsOrder.resolve "parts[0].lines" = .array [.null, .string "b"] := by
    rw [Value.resolve, hpath]
    rfl
  have direct : IsDirect (Path.ofText "parts[0].lines") partsOrder := by
    rw [hpath]
    exact ⟨_, rfl, _, rfl, _, rfl, trivial⟩
  obtain ⟨records, hrecords, -, hitems, -⟩ := resolve_mvExpand hresolve
  exact ⟨hresolve, direct, records, hrecords, hitems direct⟩

/-- A key of digits is read as the index of an array but not written there: the records are two copies
of the row, and both still have the whole array at the path. -/
theorem resolve_mvExpand_digits :
    let row : Value := .object [("a", .array [.array [.number 1, .number 2]])]
    mvExpand "a.0" [row] = .ok [row, row] ∧ row.resolve "a.0" = .array [.number 1, .number 2] ∧
      row.resolve "a.0" ≠ .number 1 := by
  have hpath : Path.ofText "a.0" = [.key "a", .key "0"] := by decide +kernel
  refine ⟨?_, ?_, ?_⟩
  · rw [mvExpand, hpath]
    rfl
  · rw [Value.resolve, hpath]
    rfl
  · rw [Value.resolve, hpath]
    exact nofun

end Pipeline
end Tabulate
