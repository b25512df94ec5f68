import Tabulate.Proofs.Jsonata.FieldPath
import Tabulate.Query.Run

/-! Root selectors: names between points select the same value as a path and as an expression, unless an array
lies on the way. -/
namespace Tabulate

section Texts
variable {first : String} {names : List String}

/-- The text of names between points is the text of their keys but for its first point. -/
theorem toList_intercalate_names (first : String) (names : List String) :
    (".".intercalate (first :: names)).toList =
      first.toList ++ (names.map .key).flatMap PathStep.attributeText := by
  induction names generalizing first with
  | nil => simp
  | cons next names ih =>
    rw [String.intercalate_cons_of_ne_nil (List.cons_ne_nil _ _), String.toList_append, String.toList_append, ih,
      List.append_assoc]
    rfl

private theorem isBare_keys (isName : ∀ name ∈ names, Token.isName name = true) :
    ∀ step ∈ names.map PathStep.key, step.IsBare := by
  intro step hstep
  obtain ⟨name, mem, rfl⟩ := List.mem_map.mp hstep
  exact PathStep.IsAttribute.isBare (isName name mem)

/-- Names between points start with a word character. -/
theorem exists_head_names (isName : Token.isName first = true) (names : List String) :
    ∃ c more, (".".intercalate (first :: names)).toList = c :: more ∧ Token.isWordChar c = true := by
  obtain ⟨c, more, hfirst, -, hword⟩ := Token.isName_cases isName
  exact ⟨c, _, by rw [toList_intercalate_names, hfirst, List.cons_append], hword c List.mem_cons_self⟩

/-- Names between points are read as their keys. -/
theorem Path.ofText_names (isName : ∀ name ∈ first :: names, Token.isName name = true) :
    Path.ofText (".".intercalate (first :: names)) = (first :: names).map .key := by
  have hhead : first.toList.head? ≠ some '$' := by
    obtain ⟨c, more, hfirst, -, hword⟩ := Token.isName_cases (isName first List.mem_cons_self)
    rw [hfirst]
    exact fun heq => Token.ne_of_isWordChar (hword c List.mem_cons_self) (by decide) (Option.some.inj heq)
  rw [← String.ofList_toList (s := ".".intercalate (first :: names)), toList_intercalate_names]
  exact ofText_attributes (isBare_keys isName) hhead

end Texts

namespace Query
variable {selector : String} {names : List String}

/-- A selector without blanks that starts like a name is a path. -/
theorem selectRoot_path (solid : ∀ c ∈ selector.toList, Unicode.isBlank c = false) {c : Char} {more : List Char}
    (h : selector.toList = c :: more) (isWord : Token.isWordChar c = true) (v : Value) :
    selectRoot selector v = .ok (v.resolve selector) := by
  have hdollar : c ≠ '$' := Token.ne_of_isWordChar isWord (by decide)
  have hpoint : c ≠ '.' := Token.ne_of_isWordChar isWord (by decide)
  have hwhole : ¬ (selector = "" ∨ selector = "$" ∨ selector = ".") := by
    rintro (rfl | rfl | rfl) <;> cases h
    · exact hdollar rfl
    · exact hpoint rfl
  have hhead : selector.toList.head? ≠ some '$' := by
    rw [h]
    exact fun heq => hdollar (Option.some.inj heq)
  simp only [selectRoot, Unicode.trim_of_forall solid, String.ofList_toList]
  rw [if_neg hwhole, if_neg hhead]

/-- A selector without blanks that goes on after a dollar sign is an expression. -/
theorem selectRoot_expression (solid : ∀ c ∈ selector.toList, Unicode.isBlank c = false) {more : List Char}
    (h : selector.toList = '$' :: more) (nonempty : more ≠ []) (v : Value) :
    selectRoot selector v = (do (← Jsonata.Expression.parse selector).evaluate v) := by
  have hwhole : ¬ (selector = "" ∨ selector = "$" ∨ selector = ".") := by
    rintro (rfl | rfl | rfl) <;> cases h
    exact nonempty rfl
  simp only [selectRoot, Unicode.trim_of_forall solid, String.ofList_toList]
  rw [if_neg hwhole, if_pos (by rw [h, List.head?_cons])]

/-- Names between points select the same value as a path and as an expression: the one at the end of the path
of their keys, or null. -/
theorem selectRoot_dotted {v : Value} {names : List String} (nonempty : names ≠ [])
    (plain : ∀ name ∈ names, Jsonata.IsFieldName name) (passes : v.PassesNoArray (names.map .key)) :
    selectRoot (".".intercalate names) v = .ok ((v.at? (names.map .key)).getD .null) ∧
      selectRoot ("$." ++ ".".intercalate names) v = .ok ((v.at? (names.map .key)).getD .null) := by
  obtain ⟨first, names, rfl⟩ := List.exists_cons_of_ne_nil nonempty
  have isName : ∀ name ∈ first :: names, Token.isName name = true := fun name mem => (plain name mem).1
  have hblank := Path.isBlank_attributes (isBare_keys isName)
  have htext : ((first :: names).map .key).flatMap PathStep.attributeText =
      '.' :: (".".intercalate (first :: names)).toList := by
    rw [toList_intercalate_names]
    rfl
  constructor
  · rw [htext] at hblank
    obtain ⟨c, more, hhead, hword⟩ := exists_head_names (isName first List.mem_cons_self) names
    rw [selectRoot_path (List.forall_mem_cons.mp hblank).2 hhead hword, Value.resolve, Path.ofText_names isName]
  · have hexpression : ("$." ++ ".".intercalate (first :: names)).toList =
        '$' :: ((first :: names).map .key).flatMap PathStep.attributeText := by
      rw [String.toList_append, htext]
      rfl
    have solid : ∀ c ∈ ("$." ++ ".".intercalate (first :: names)).toList, Unicode.isBlank c = false := by
      rw [hexpression]
      exact List.forall_mem_cons.mpr ⟨by decide +kernel, hblank⟩
    rw [selectRoot_expression solid hexpression (htext ▸ List.cons_ne_nil _ _),
      Jsonata.Expression.parse_fieldPath plain hexpression]
    exact Jsonata.eval_fieldPath passes

/-- A path through two objects to an array, which is selected as it is. -/
theorem selectRoot_dotted_array :
    let v := Value.object [("a", .object [("in", .array [.array [], .null])])]
    ["a", "in"] ≠ [] ∧ (∀ name ∈ ["a", "in"], Jsonata.IsFieldName name) ∧ v.PassesNoArray [.key "a", .key "in"] ∧
      selectRoot "a.in" v = .ok (.array [.array [], .null]) ∧
      selectRoot "$.a.in" v = .ok (.array [.array [], .null]) := by
  intro v
  have nonempty : ["a", "in"] ≠ [] := List.cons_ne_nil _ _
  have plain : ∀ name ∈ ["a", "in"], Jsonata.IsFieldName name := by
    rintro name (_ | ⟨_, _ | ⟨_, ⟨⟩⟩⟩) <;> exact ⟨by decide +kernel, by decide⟩
  have passes : v.PassesNoArray [.key "a", .key "in"] := by
    have hobject (fields : Fields) (items : List Value) : Value.object fields ≠ .array items := nofun
    intro n hn items
    match n with
    | 0 | 1 => exact fun heq => hobject _ items (Option.some.inj heq)
    | n + 2 => exact absurd hn (by simp)
  obtain ⟨hpath, hexpression⟩ := selectRoot_dotted nonempty plain passes
  have htext : ".".intercalate ["a", "in"] = "a.in" ∧ "$." ++ "a.in" = "$.a.in" := by decide
  have hend : (v.at? (["a", "in"].map .key)).getD .null = .array [.array [], .null] := rfl
  rw [htext.1, hend] at hpath hexpression
  rw [htext.2] at hexpression
  exact ⟨nonempty, plain, passes, hpath, hexpression⟩

end Query
end Tabulate
