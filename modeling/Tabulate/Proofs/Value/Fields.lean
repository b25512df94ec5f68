import Mathlib.Data.List.Induction
import Tabulate.Proofs.Grouping
import Tabulate.Value.Basic

/-! Fields with distinct keys stay as they are put together, and of a repeated key one stays. A field is found
and replaced where it stands, and what is left out later does not show. -/
namespace Tabulate

namespace Fields

theorem get?_cons (field : String × Value) (rest : Fields) (key : String) :
    Fields.get? (field :: rest) key = if field.1 = key then some field.2 else Fields.get? rest key := by
  rw [Fields.get?, List.lookup_cons]
  split
  next h => rw [if_pos (eq_of_beq h).symm]
  next h => rw [if_neg fun heq => beq_eq_false_iff_ne.mp h heq.symm, Fields.get?]

theorem insert_of_notMem {fields : Fields} {key : String} (value : Value)
    (h : key ∉ fields.map Prod.fst) : Fields.insert fields key value = fields ++ [(key, value)] := by
  induction fields with
  | nil => rfl
  | cons field rest ih =>
    simp only [List.map_cons, List.mem_cons, not_or] at h
    rw [Fields.insert, if_neg (Ne.symm h.1), ih h.2, List.cons_append]

/-- Pairs with distinct keys are the fields that they make. -/
theorem ofList_eq_self {pairs : List (String × Value)} (h : (pairs.map Prod.fst).Nodup) :
    Fields.ofList pairs = pairs := by
  induction pairs using List.reverseRecOn with
  | nil => rfl
  | append_singleton pairs pair ih =>
    rw [List.map_append, List.nodup_append] at h
    have hnew : pair.1 ∉ pairs.map Prod.fst := fun hmem =>
      h.2.2 pair.1 hmem pair.1 (by simp) rfl
    have hinit : pairs.foldl (fun fields p => Fields.insert fields p.1 p.2) [] = pairs := ih h.1
    rw [Fields.ofList, List.foldl_append, hinit]
    exact insert_of_notMem pair.2 hnew

private theorem keys_cons (field : String × Value) (rest : Fields) : keys (field :: rest) = field.1 :: keys rest := rfl

theorem keys_insert (fields : Fields) (key : String) (value : Value) :
    (Fields.insert fields key value).keys = if key ∈ fields.keys then fields.keys else fields.keys ++ [key] := by
  induction fields with
  | nil => rfl
  | cons field rest ih =>
    rw [Fields.insert]
    split
    next h => simp [keys_cons, h]
    next h =>
      rw [keys_cons, keys_cons, ih]
      by_cases hrest : key ∈ keys rest
      · simp [hrest]
      · simp [hrest, Ne.symm h]

/-- The keys of pairs stand where they come first. -/
theorem keys_ofList (pairs : List (String × Value)) :
    (Fields.ofList pairs).keys = (pairs.map Prod.fst).eraseDups := by
  induction pairs using List.reverseRecOn with
  | nil => rfl
  | append_singleton pairs pair ih =>
    have hlast : Fields.ofList (pairs ++ [pair]) = (Fields.ofList pairs).insert pair.1 pair.2 := List.foldl_append
    rw [hlast, keys_insert, ih, List.map_append, List.map_singleton, Groups.eraseDups_append_singleton]
    simp only [List.mem_eraseDups]

variable {fields more : Fields} {key : String}

/-- An inserted field has its value, and the others keep theirs. -/
theorem get?_insert (fields : Fields) (name : String) (value : Value) (key : String) :
    Fields.get? (fields.insert name value) key = if name = key then some value else fields.get? key := by
  induction fields with
  | nil => exact get?_cons (name, value) [] key
  | cons field fields ih =>
    rw [Fields.insert]
    split
    next h =>
      rw [get?_cons, get?_cons, ← h]
      split <;> rfl
    next h =>
      rw [get?_cons, get?_cons, ih]
      by_cases hkey : field.1 = key
      · rw [if_pos hkey, if_pos hkey, if_neg fun heq => h (hkey.trans heq.symm)]
      · rw [if_neg hkey, if_neg hkey]

/-- Of pairs with one key, the last gives its value. -/
theorem get?_ofList (pairs : List (String × Value)) (key : String) :
    (Fields.ofList pairs).get? key = Fields.get? pairs.reverse key := by
  induction pairs using List.reverseRecOn with
  | nil => rfl
  | append_singleton pairs pair ih =>
    have hlast : Fields.ofList (pairs ++ [pair]) = (Fields.ofList pairs).insert pair.1 pair.2 := List.foldl_append
    rw [hlast, get?_insert, ih, List.reverse_append, List.reverse_singleton, List.singleton_append, get?_cons]

/-- Each pair makes a field only if no key comes twice. -/
theorem length_ofList_eq_iff (pairs : List (String × Value)) :
    (Fields.ofList pairs).length = pairs.length ↔ (pairs.map Prod.fst).Nodup := by
  have hkeys := congrArg List.length (keys_ofList pairs)
  rw [keys, List.length_map] at hkeys
  rw [hkeys, ← Groups.length_eraseDups_eq_iff, List.length_map]

theorem insert_append_of_notMem (h : key ∉ fields.map Prod.fst) (value : Value) :
    Fields.insert (fields ++ more) key value = fields ++ Fields.insert more key value := by
  induction fields with
  | nil => rfl
  | cons field fields ih =>
    rw [List.map_cons, List.mem_cons, not_or] at h
    rw [List.cons_append, Fields.insert, if_neg (Ne.symm h.1), ih h.2, List.cons_append]

theorem get?_append_of_notMem (h : key ∉ fields.map Prod.fst) :
    Fields.get? (fields ++ more) key = Fields.get? more key := by
  have hnone : fields.lookup key = none := by
    refine List.lookup_eq_none_iff.mpr fun field hfield => ?_
    exact bne_iff_ne.mpr fun heq => h (heq ▸ List.mem_map_of_mem hfield)
  rw [Fields.get?, List.lookup_append, hnone, Option.none_or, Fields.get?]

/-- An insertion does not show where its key is left out. -/
theorem filter_insert {p : String → Bool} (fields : Fields) (h : p key = false) (value : Value) :
    (fields.insert key value).filter (fun field => p field.1) = fields.filter fun field => p field.1 := by
  induction fields with
  | nil => simp [Fields.insert, h]
  | cons field fields ih =>
    rw [Fields.insert]
    split
    next hkey => simp [hkey, h]
    next => rw [List.filter_cons, List.filter_cons, ih]

/-- Keys that are left out one after the other are left out together. -/
theorem foldl_erase (names : List String) (fields : Fields) :
    names.foldl Fields.erase fields = fields.filter fun field => decide (field.1 ∉ names) := by
  induction names generalizing fields with
  | nil => simp
  | cons name names ih =>
    rw [List.foldl_cons, ih, erase, List.filter_filter]
    refine List.filter_congr fun field _ => ?_
    by_cases hname : field.1 = name <;> simp [hname]

section OfKeys
variable {keys : List String} {f : String → Value}

theorem get?_map_of_mem (h : key ∈ keys) :
    Fields.get? (keys.map fun k => (k, f k)) key = some (f key) := by
  induction keys with
  | nil => contradiction
  | cons first keys ih =>
    rw [Fields.get?, List.map_cons, List.lookup_cons]
    by_cases hfirst : key = first
    · simp [hfirst]
    · have hmem : key ∈ keys := (List.mem_cons.mp h).resolve_left hfirst
      rw [beq_eq_false_iff_ne.mpr hfirst]
      exact ih hmem

theorem insert_map_of_mem (distinct : keys.Nodup) (h : key ∈ keys) (value : Value) :
    Fields.insert (keys.map fun k => (k, f k)) key value =
      keys.map fun k => (k, if k = key then value else f k) := by
  induction keys with
  | nil => contradiction
  | cons first keys ih =>
    obtain ⟨hnew, hkeys⟩ := List.nodup_cons.mp distinct
    rw [List.map_cons, List.map_cons, Fields.insert]
    by_cases hfirst : first = key
    · subst hfirst
      have hrest : keys.map (fun k => (k, f k)) =
          keys.map fun k => (k, if k = first then value else f k) :=
        List.map_congr_left fun k hk => by rw [if_neg (ne_of_mem_of_not_mem hk hnew)]
      rw [if_pos rfl, if_pos rfl, hrest]
    · have hmem : key ∈ keys := (List.mem_cons.mp h).resolve_left (Ne.symm hfirst)
      rw [if_neg hfirst, if_neg hfirst, ih hkeys hmem]

end OfKeys

end Fields

end Tabulate
