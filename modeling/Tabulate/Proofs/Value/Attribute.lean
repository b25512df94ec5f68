import Tabulate.Proofs.Token.Spelling
import Tabulate.Proofs.Value.Path

/-! The text of an attribute: a path of names and indexes is read from a text without quotes. -/
namespace Tabulate

namespace PathStep

def IsAttribute : PathStep → Prop
  | .key name => Token.isName name = true
  | .index position => position < twoTo 64

/-- A step whose key may stand in a path as it is: it has no blanks and none of the marks of a path. -/
def IsBare : PathStep → Prop
  | .key name => name ≠ "" ∧ ∀ c ∈ name.toList, c ≠ '.' ∧ c ≠ '[' ∧ Unicode.isBlank c = false
  | .index position => position < twoTo 64

theorem IsAttribute.isBare {step : PathStep} (h : step.IsAttribute) : step.IsBare := by
  cases step with
  | index position => exact h
  | key name =>
    obtain ⟨first, more, hname, -, hword⟩ := Token.isName_cases h
    refine ⟨fun hempty => ?_, fun c hc => ?_⟩
    · rw [hempty] at hname
      contradiction
    · have hc := hword c (hname ▸ hc)
      exact ⟨Token.ne_of_isWordChar hc (by decide), Token.ne_of_isWordChar hc (by decide),
        Token.isBlank_of_isWordChar hc⟩

def attributeText : PathStep → List Char
  | .key name => '.' :: name.toList
  | .index position => '[' :: (Nat.toDigits 10 position ++ [']'])

private theorem isWordChar_of_isDigit {c : Char} (h : c.isDigit = true) : Token.isWordChar c = true := by
  simp [Token.isWordChar, Unicode.isAlphanumeric, Unicode.isNumeral, h]

private theorem readIndex?_toDigits {position : Nat} (h : position < twoTo 64) :
    readIndex? (Nat.toDigits 10 position) = some position := by
  have hvalue := digitsValue_toDigits position
  have hall : (Nat.toDigits 10 position).all Char.isDigit = true := List.all_eq_true.mpr isDigit_toDigits
  have hsome : (Nat.toDigits 10 position).isEmpty = false := by
    rw [List.isEmpty_eq_false_iff]
    exact Nat.toDigits_ne_nil
  have hsmall : ¬ twoTo 64 ≤ position := Nat.not_le.mpr h
  rw [digitsValue] at hvalue
  unfold readIndex?
  split
  next rest heq =>
    rw [heq, List.all_cons, Bool.and_eq_true] at hall
    exact absurd hall.1 (by decide)
  next => simp only [hvalue, hall, hsome, hsmall, Bool.not_true, Bool.or_self, decide_false,
    Bool.false_eq_true, if_false]

private theorem ofBrackets?_toDigits {position : Nat} (h : position < twoTo 64) :
    ofBrackets? (Nat.toDigits 10 position) = some (.index position) := by
  have htrim : Unicode.trim (Nat.toDigits 10 position) = Nat.toDigits 10 position :=
    Unicode.trim_of_forall fun d hd => Token.isBlank_of_isWordChar (isWordChar_of_isDigit (isDigit_toDigits d hd))
  have hunquoted : ∀ quote, quote.isDigit = false → unquote? quote (Nat.toDigits 10 position) = none := by
    intro quote hquote
    obtain ⟨d, digits, hcons⟩ := List.exists_cons_of_ne_nil (Nat.toDigits_ne_nil (n := position) (b := 10))
    have hd : d.isDigit = true := isDigit_toDigits d (hcons ▸ List.mem_cons_self)
    rw [hcons, unquote?, if_neg]
    rintro ⟨rfl, -⟩
    exact Bool.false_ne_true (hquote.symm.trans hd)
  simp only [ofBrackets?, htrim, hunquoted '\'' (by decide), hunquoted '"' (by decide), Option.or_none,
    readIndex?_toDigits h]

private theorem isBlank_attributeText {step : PathStep} (h : step.IsBare) :
    ∀ c ∈ step.attributeText, Unicode.isBlank c = false := by
  obtain ⟨hpoint, hopen, hclose⟩ :
      Unicode.isBlank '.' = false ∧ Unicode.isBlank '[' = false ∧ Unicode.isBlank ']' = false := by decide
  cases step with
  | key name => exact List.forall_mem_cons.mpr ⟨hpoint, fun c hc => (h.2 c hc).2.2⟩
  | index position =>
    refine List.forall_mem_cons.mpr ⟨hopen, List.forall_mem_append.mpr ⟨fun c hc => ?_, ?_⟩⟩
    · exact Token.isBlank_of_isWordChar (isWordChar_of_isDigit (isDigit_toDigits c hc))
    · exact List.forall_mem_singleton.mpr hclose

end PathStep

namespace Path
variable {path : Path}

/-- Names and indexes are split where they start. -/
theorem split_attributes (h : ∀ step ∈ path, step.IsBare) (current : List Char) :
    split current none (path.flatMap PathStep.attributeText) = flush current ++ path := by
  induction path generalizing current with
  | nil => rw [List.flatMap_nil, split, List.append_nil]
  | cons step path ih =>
    obtain ⟨hstep, hpath⟩ := List.forall_mem_cons.mp h
    rw [List.flatMap_cons]
    cases step with
    | key name =>
      have hplain : ∀ c ∈ name.toList, c ≠ '.' ∧ c ≠ '[' := fun c hc => ⟨(hstep.2 c hc).1, (hstep.2 c hc).2.1⟩
      have hflush : flush (name.toList.reverse ++ []) = [.key name] := by
        have hsome : name.toList ≠ [] := fun hnil => hstep.1 (String.toList_eq_nil_iff.mp hnil)
        rw [List.append_nil, flush, if_neg (by simpa using hsome), List.reverse_reverse, String.ofList_toList]
      rw [PathStep.attributeText, List.cons_append, split, if_pos rfl, split_append hplain, ih hpath, hflush,
        List.singleton_append]
    | index position =>
      have hclosed : ']' ∉ Nat.toDigits 10 position := fun hmem => absurd (isDigit_toDigits _ hmem) (by decide)
      rw [PathStep.attributeText, List.cons_append, List.append_assoc, List.singleton_append,
        split_brackets hclosed, PathStep.ofBrackets?_toDigits hstep, ih hpath]
      rfl

theorem isBlank_attributes (h : ∀ step ∈ path, step.IsBare) :
    ∀ c ∈ path.flatMap PathStep.attributeText, Unicode.isBlank c = false := by
  intro c hc
  obtain ⟨step, hstep, hc⟩ := List.mem_flatMap.mp hc
  exact PathStep.isBlank_attributeText (h step hstep) c hc

/-- A name and the steps behind it are read as they are written. -/
theorem ofText_attributes {first : String} (h : ∀ step ∈ .key first :: path, step.IsBare)
    (noRoot : first.toList.head? ≠ some '$') :
    ofText (String.ofList (first.toList ++ path.flatMap PathStep.attributeText)) = .key first :: path := by
  have hblank := isBlank_attributes h
  have hsplit := split_attributes h []
  rw [List.flatMap_cons, PathStep.attributeText, List.cons_append] at hblank hsplit
  have hhead : (first.toList ++ path.flatMap PathStep.attributeText).head? ≠ some '$' := by
    have hsome : first.toList ≠ [] := fun hnil => (h _ List.mem_cons_self).1 (String.toList_eq_nil_iff.mp hnil)
    rwa [List.head?_append_of_ne_nil _ hsome]
  rw [ofText, String.toList_ofList, Unicode.trim_of_forall (List.forall_mem_cons.mp hblank).2,
    withoutRoot_of_head hhead]
  -- The point ahead of the first key, which the text does not have, ends an empty key.
  rw [split, if_pos rfl] at hsplit
  exact hsplit

/-- A path of names and indexes has a text. -/
theorem exists_ofText (h : ∀ step ∈ path, step.IsAttribute) : ∃ text, ofText text = path := by
  have hbare : ∀ step ∈ path, step.IsBare := fun step mem => (h step mem).isBare
  refine ⟨String.ofList ('$' :: path.flatMap PathStep.attributeText), ?_⟩
  have htrim : Unicode.trim ('$' :: path.flatMap PathStep.attributeText) =
      '$' :: path.flatMap PathStep.attributeText :=
    Unicode.trim_of_forall (List.forall_mem_cons.mpr ⟨by decide, isBlank_attributes hbare⟩)
  have hsplit := split_attributes hbare []
  rw [ofText, String.toList_ofList, htrim]
  cases path with
  | nil => exact hsplit
  | cons step path =>
    cases step with
    | key name =>
      -- The point after the mark of the root goes with it.
      rw [List.flatMap_cons, PathStep.attributeText, List.cons_append, split, if_pos rfl] at hsplit
      exact hsplit
    | index position => exact hsplit

end Path
end Tabulate
