import Tabulate.Jsonata.Eval
import Tabulate.Pipeline.Function
import Tabulate.Proofs.Number.Digits

/-! Splitting a text at a separator and joining the parts again. No part holds the separator, the parts between
separators are the text, and a third argument takes one of the parts. -/
namespace Tabulate

namespace Text
variable {separator : List Char}

/-- Induction along the parts of a text: a separator in front, or a character that starts none. -/
theorem splitInduction (nonempty : separator ≠ []) {motive : List Char → Prop} (nil : motive [])
    (found : ∀ rest, motive rest → motive (separator ++ rest))
    (other : ∀ c rest, ¬ separator <+: c :: rest → motive rest → motive (c :: rest)) (text : List Char) :
    motive text := by
  induction hlength : text.length using Nat.strongRecOn generalizing text with
  | ind n ih =>
    cases text with
    | nil => exact nil
    | cons c rest =>
      by_cases h : separator <+: c :: rest
      · obtain ⟨more, hmore⟩ := h
        have shorter : more.length < n := by
          have hpos := List.length_pos_iff.mpr nonempty
          rw [← hlength, ← hmore, List.length_append]
          omega
        exact hmore ▸ found more (ih more.length shorter more rfl)
      · have shorter : rest.length < n := hlength ▸ Nat.lt_succ_self rest.length
        exact other c rest h (ih rest.length shorter rest rfl)

private theorem exists_splitAt (nonempty : separator ≠ []) (text : List Char) :
    ∃ first more, splitAt separator text = first :: more := by
  induction text using splitInduction nonempty with
  | nil => exact ⟨[], [], rfl⟩
  | found rest => exact ⟨[], _, splitAt_append nonempty rest⟩
  | other c rest h ih =>
    obtain ⟨first, more, hsplit⟩ := ih
    exact ⟨c :: first, more, by rw [splitAt_cons h, hsplit, List.modifyHead_cons]⟩

/-- The parts of a text with the separator between them are the text. -/
theorem intercalate_splitAt (nonempty : separator ≠ []) (text : List Char) :
    separator.intercalate (splitAt separator text) = text := by
  induction text using splitInduction nonempty with
  | nil => exact List.intercalate_singleton
  | found rest ih =>
    obtain ⟨first, more, hsplit⟩ := exists_splitAt nonempty rest
    rw [splitAt_append nonempty, List.intercalate_cons_of_ne_nil (hsplit ▸ List.cons_ne_nil _ _), ih, List.nil_append]
  | other c rest h ih =>
    obtain ⟨first, more, hsplit⟩ := exists_splitAt nonempty rest
    rw [splitAt_cons h, hsplit, List.modifyHead_cons]
    rw [hsplit] at ih
    cases more <;> simpa using ih

/-- The first part is what the text starts with. -/
theorem prefix_of_splitAt (nonempty : separator ≠ []) {text first : List Char} {more : List (List Char)}
    (h : splitAt separator text = first :: more) : first <+: text := by
  have hjoin := intercalate_splitAt nonempty text
  rw [h] at hjoin
  cases more with
  | nil => exact ⟨[], by simpa using hjoin⟩
  | cons next more => exact ⟨_, by simpa using hjoin⟩

/-- No part holds the separator. -/
theorem not_infix_of_mem_splitAt (nonempty : separator ≠ []) (text : List Char) :
    ∀ part ∈ splitAt separator text, ¬ separator <:+: part := by
  have hnil : ¬ separator <:+: [] := fun h => nonempty (List.infix_nil.mp h)
  induction text using splitInduction nonempty with
  | nil => exact List.forall_mem_singleton.mpr hnil
  | found rest ih =>
    rw [splitAt_append nonempty]
    exact List.forall_mem_cons.mpr ⟨hnil, ih⟩
  | other c rest h ih =>
    obtain ⟨first, more, hsplit⟩ := exists_splitAt nonempty rest
    rw [hsplit, List.forall_mem_cons] at ih
    rw [splitAt_cons h, hsplit, List.modifyHead_cons, List.forall_mem_cons]
    refine ⟨fun hinfix => ?_, ih.2⟩
    -- A separator at the start of the part would have been found there in the text.
    rcases List.infix_cons_iff.mp hinfix with hstart | hlater
    · exact h (hstart.trans (List.cons_prefix_cons.mpr ⟨rfl, prefix_of_splitAt nonempty hsplit⟩))
    · exact ih.1 hlater

end Text

namespace Pipeline
variable {separator : String}

/-- The parts of a text between the occurrences of a separator. -/
def partsOf (separator text : String) : List String :=
  (Text.splitAt separator.toList text.toList).map String.ofList

private theorem toList_ne_nil (nonempty : separator ≠ "") : separator.toList ≠ [] := fun h =>
  nonempty (String.toList_inj.mp h)

private theorem not_isEmpty (nonempty : separator ≠ "") : ¬ separator.isEmpty = true := by
  simpa using nonempty

private theorem map_string (separator text : String) :
    (Text.splitAt separator.toList text.toList).map (fun part => Value.string (String.ofList part)) =
      (partsOf separator text).map .string := by
  rw [partsOf, List.map_map]
  rfl

private theorem call_split (nonempty : separator ≠ "") (text : String) (record : Value) :
    Function.split.call [.string text, .string separator] record = .array ((partsOf separator text).map .string) := by
  rw [← map_string]
  exact if_neg (not_isEmpty nonempty)

private theorem call_split_index (nonempty : separator ≠ "") (text : String) (index : Number) (record : Value) :
    Function.split.call [.string text, .string separator, .number index] record =
      if index.less 0 || index.isNaN then .null
      else ((partsOf separator text)[index.toNat64]?.map .string).getD .null := by
  rw [← List.getElem?_map, ← map_string]
  exact if_neg (not_isEmpty nonempty)

/-- An integer takes the part at its place, or null if there is none. -/
theorem call_split_ofInt (nonempty : separator ≠ "") (text : String) {i : Int} (exact : i.natAbs < twoTo 53)
    (record : Value) :
    Function.split.call [.string text, .string separator, .number (.ofInt i)] record =
      if h : 0 ≤ i ∧ i < (partsOf separator text).length then .string (partsOf separator text)[i.toNat] else .null := by
  have isNumber : (Number.ofInt i).isNaN = false := congrArg Number.isNaN (Number.ofInt_eq_finite exact)
  rw [call_split_index nonempty, Number.less_zero_ofInt exact, isNumber, Bool.or_false]
  by_cases negative : i < 0
  · rw [if_pos (decide_eq_true negative), dif_neg (by omega)]
  · rw [if_neg (by simpa using negative), Number.toNat64_ofInt exact (by omega)]
    split
    next h => rw [List.getElem?_eq_getElem (by omega), Option.map_some, Option.getD_some]
    next h => rw [List.getElem?_eq_none (by omega), Option.map_none, Option.getD_none]

/-- A joined array of texts is the texts with the separator between them. -/
theorem call_join (parts : List String) (separator : String) (context : Value) (position : Nat) :
    Jsonata.Function.join.call [.array (parts.map .string), .string separator] context position =
      .ok (.string (separator.intercalate parts)) := by
  have htexts : (parts.map Value.string).map Value.text = parts := by
    rw [List.map_map]
    exact List.map_id parts
  show Except.ok (Value.string (separator.intercalate ((parts.map Value.string).map Value.text))) = _
  rw [htexts]

private theorem intercalate_partsOf (nonempty : separator ≠ "") (text : String) :
    separator.intercalate (partsOf separator text) = text := by
  have hlists : (partsOf separator text).map String.toList = Text.splitAt separator.toList text.toList := by
    rw [partsOf, List.map_map]
    exact (List.map_congr_left fun part _ => String.toList_ofList).trans (List.map_id _)
  rw [← String.toList_inj, String.toList_intercalate, hlists, Text.intercalate_splitAt (toList_ne_nil nonempty)]

/-- A text is split into parts none of which holds the separator and which joined give back the text. With an
index it is split into the part at that index, or null if there is none. -/
theorem call_split_isSplit (text separator : String) (nonempty : separator ≠ "") (record : Value) :
    ∃ parts : List String,
      Function.split.call [.string text, .string separator] record = .array (parts.map .string) ∧
      parts ≠ [] ∧ (∀ part ∈ parts, ¬ separator.toList <:+: part.toList) ∧
      (∀ context position, Jsonata.Function.join.call [.array (parts.map .string), .string separator] context position =
        .ok (.string text)) ∧
      ∀ i : Int, i.natAbs < twoTo 53 →
        Function.split.call [.string text, .string separator, .number (.ofInt i)] record =
          if h : 0 ≤ i ∧ i < parts.length then .string parts[i.toNat] else .null := by
  have nonempty' := toList_ne_nil nonempty
  refine ⟨partsOf separator text, call_split nonempty text record, ?_, ?_, fun context position => ?_, fun i exact => ?_⟩
  · obtain ⟨first, more, hsplit⟩ := Text.exists_splitAt nonempty' text.toList
    rw [partsOf, hsplit]
    exact List.cons_ne_nil _ _
  · intro part mem
    obtain ⟨chars, hchars, rfl⟩ := List.mem_map.mp mem
    rw [String.toList_ofList]
    exact Text.not_infix_of_mem_splitAt nonempty' text.toList chars hchars
  · rw [call_join, intercalate_partsOf nonempty]
  · exact call_split_ofInt nonempty text exact record

/-- A separator that overlaps itself is found from the left, and the place before the first part has none. -/
theorem call_split_isSplit_overlap :
    "aa" ≠ "" ∧ (1 : Int).natAbs < twoTo 53 ∧ (-1 : Int).natAbs < twoTo 53 ∧
      Function.split.call [.string "aaa", .string "aa"] .null = .array [.string "", .string "a"] ∧
      (∀ part ∈ ["", "a"], ¬ "aa".toList <:+: part.toList) ∧
      Jsonata.Function.join.call [.array [.string "", .string "a"], .string "aa"] .null 0 = .ok (.string "aaa") ∧
      Function.split.call [.string "aaa", .string "aa", .number (.ofInt 1)] .null = .string "a" ∧
      Function.split.call [.string "aaa", .string "aa", .number (.ofInt (-1))] .null = .null := by
  have nonempty : "aa" ≠ "" := by decide
  have exact : (1 : Int).natAbs < twoTo 53 ∧ (-1 : Int).natAbs < twoTo 53 := by decide
  have hcall : Function.split.call [.string "aaa", .string "aa"] .null = .array (["", "a"].map .string) := by rfl
  obtain ⟨parts, hparts, -, hfree, hjoin, hplace⟩ := call_split_isSplit "aaa" "aa" nonempty .null
  obtain rfl : ["", "a"] = parts :=
    (List.map_inj_right fun _ _ => Value.string.inj).mp (Value.array.inj (hcall.symm.trans hparts))
  exact ⟨nonempty, exact.1, exact.2, hparts, hfree, hjoin .null 0, hplace 1 exact.1, hplace (-1) exact.2⟩

end Pipeline
end Tabulate
