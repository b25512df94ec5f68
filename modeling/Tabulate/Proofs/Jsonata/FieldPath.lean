import Mathlib.Data.List.Induction
import Tabulate.Jsonata.Eval
import Tabulate.Proofs.Jsonata.Recovery
import Tabulate.Proofs.Token.Adjacent
import Tabulate.Proofs.Value.Attribute

/-! A path of names from the input: where no array lies on the way, it has the value at the end of the path
of the same keys. -/
namespace Tabulate

/-- No value before the end of a path is an array. -/
def Value.PassesNoArray (v : Value) (path : Path) : Prop :=
  ∀ n < path.length, ∀ items, v.at? (path.take n) ≠ some (.array items)

private theorem Value.at?_append_singleton (v : Value) (path : Path) (step : PathStep) :
    v.at? (path ++ [step]) = (v.at? path).bind (·.step? step) := by
  have hstep : ∀ w : Value, w.at? [step] = w.step? step := fun w => bind_pure _
  rw [Value.at?_append]
  simp only [hstep]

private theorem Value.PassesNoArray.of_append_singleton {v : Value} {path : Path} {step : PathStep}
    (h : v.PassesNoArray (path ++ [step])) :
    v.PassesNoArray path ∧ ∀ items, v.at? path ≠ some (.array items) := by
  constructor
  · intro n hn
    have hlast := h n (by rw [List.length_append]; omega)
    rwa [List.take_append_of_le_length hn.le] at hlast
  · have hlast := h path.length (by rw [List.length_append, List.length_singleton]; omega)
    rwa [List.take_left] at hlast

namespace Jsonata

def constants : List String := ["true", "false", "null"]

def IsFieldName (name : String) : Prop := Token.isName name = true ∧ name ∉ constants

/-- The fields of a path, each one taken from the value of those before it. -/
def fieldPath (left : Node) (names : List String) : Node :=
  names.foldl (fun left name => .path left (.field name)) left

section Reading
variable {fuel : Nat} {ts : Tokens} {name : String} {names : List String} {more : List Token}

def fieldTokens (names : List String) : List Token := names.flatMap fun name => [.symbol ".", .ident name]

private theorem readOperand_field (h : ts.tokens = .ident name :: more) (plain : name ∉ constants) :
    readOperand (fuel + 1) ts = .ok (.field name, ts.tail) := by
  simp only [constants, List.mem_cons, List.not_mem_nil, or_false, not_or] at plain
  simp [readOperand, Tokens.peek?_of_tokens h, plain]

private theorem stops_fieldTokens (names : List String) {power : Nat} (h : pathPower < power) :
    Stops power (fieldTokens names) := by
  cases names with
  | nil => exact stops_nil power
  | cons name names => exact (ends_operator rfl).stops h

/-- The names of a path are read one by one, up to the end of the text. -/
theorem finds_fieldPath (plain : ∀ name ∈ names, IsFieldName name) {left : Node}
    (h : ts.tokens = fieldTokens names) (enough : names.length + 3 ≤ fuel) :
    Finds (readOperators fuel 0 left ts) (· = fieldPath left names) [] := by
  induction names generalizing fuel left ts with
  | nil =>
    obtain ⟨steps, rfl, -⟩ := exists_step enough
    rw [readOperators_stop (h.symm ▸ stops_nil 0)]
    exact .ok rfl h
  | cons name names ih =>
    obtain ⟨hname, hnames⟩ := List.forall_mem_cons.mp plain
    obtain ⟨steps, rfl⟩ := Nat.exists_eq_add_of_le' (Nat.le_trans (Nat.le_add_left 4 _) enough)
    have hfield := Tokens.tokens_tail h
    have hmore := Tokens.tokens_tail hfield
    have hread : readExpression (steps + 3) (pathPower + 1) ts.tail = .ok (.field name, ts.tail.tail) := by
      rw [readExpression, readOperand_field hfield hname.2]
      exact readOperators_stop (hmore ▸ stops_fieldTokens names (Nat.lt_succ_self _))
    -- The field has been put behind what was read before, and the loop goes on.
    rw [readOperators_path h (Nat.zero_le _), hread]
    exact ih hnames hmore (by rw [List.length_cons] at enough; omega)

private theorem length_fieldTokens (names : List String) : (fieldTokens names).length = 2 * names.length := by
  simp [fieldTokens, Nat.mul_comm]

/-- The text of keys has the tokens of a path of names. -/
theorem isText_fieldTokens (isName : ∀ name ∈ names, Token.isName name = true) :
    Token.IsText false (fieldTokens names) ((names.map .key).flatMap PathStep.attributeText) ∧
      Token.EndsName false ((names.map .key).flatMap PathStep.attributeText) := by
  induction names with
  | nil => exact ⟨.nil, trivial⟩
  | cons name names ih =>
    obtain ⟨hname, hnames⟩ := List.forall_mem_cons.mp isName
    obtain ⟨next, ends⟩ := ih hnames
    obtain ⟨c, more, hchars, -, hword⟩ := Token.isName_cases hname
    have hpoints : Token.continuations "." = ['.', '.'] := by decide
    refine ⟨Token.IsText.mark_of_head (.token (.name hname ends) next) "." (by decide) ?_,
      Token.isWordChar_mark (by decide), nofun⟩
    rw [hchars]
    rintro _ ⟨⟩ hmem
    have hpoint : c = '.' := by simpa [hpoints] using hmem
    exact Token.ne_of_isWordChar (hword c List.mem_cons_self) (by decide) hpoint

/-- A path of names from the input is read as such. -/
theorem Expression.parse_fieldPath (plain : ∀ name ∈ names, IsFieldName name) {source : String}
    (h : source.toList = '$' :: (names.map .key).flatMap PathStep.attributeText) :
    Expression.parse source = .ok ⟨source, fieldPath .context names⟩ := by
  obtain ⟨next, ends⟩ := isText_fieldTokens fun name mem => (plain name mem).1
  have hdollar : ((names.map .key).flatMap PathStep.attributeText).head? ≠ some '$' := by
    cases names with
    | nil => nofun
    | cons name names => exact fun heq => absurd (Option.some.inj heq) (by decide)
  have isText : Token.IsText false (.dollar "" :: fieldTokens names) source.toList := by
    rw [h]
    exact .token (.dollar ends hdollar) next
  obtain ⟨node, hparse, rfl⟩ := Expression.parse_of_finds (p := (· = fieldPath .context names)) isText <| by
    intro fuel ts hts enough
    rw [Enough, List.length_cons, length_fieldTokens] at enough
    obtain ⟨steps, rfl⟩ := Nat.exists_eq_add_of_le' (Nat.le_trans (Nat.le_add_left 2 _) enough)
    rw [readExpression, readOperand_atom .context hts]
    exact finds_fieldPath plain (Tokens.tokens_tail hts) (by omega)
  exact hparse

end Reading

section Evaluation
variable {root v : Value}

/-- What is no array has the field that a key leads to. -/
theorem eval_path_field {left : Node} {w : Value} (evalLeft : eval root v left = .ok w)
    (single : ∀ items, w ≠ .array items) (name : String) :
    eval root v (.path left (.field name)) = .ok ((w.step? (.key name)).getD .null) := by
  rw [eval, evalLeft]
  cases w with
  | array items => exact absurd rfl (single items)
  | _ => rfl

/-- A path of names has the value at its end, or null. -/
theorem eval_fieldPath {names : List String} (passes : v.PassesNoArray (names.map .key)) :
    eval root v (fieldPath .context names) = .ok ((v.at? (names.map .key)).getD .null) := by
  -- The last name is the outermost step of the path, so the induction is from the end.
  induction names using List.reverseRecOn with
  | nil => rfl
  | append_singleton names name ih =>
    rw [List.map_append, List.map_singleton] at passes ⊢
    obtain ⟨passesInit, hend⟩ := passes.of_append_singleton
    have single : ∀ items, (v.at? (names.map .key)).getD .null ≠ .array items := by
      intro items heq
      cases h : v.at? (names.map .key) with
      | none => rw [h] at heq; cases heq
      | some w => rw [h] at heq; exact hend items (h.trans (congrArg some heq))
    have hnode : fieldPath .context (names ++ [name]) = .path (fieldPath .context names) (.field name) :=
      List.foldl_append
    rw [hnode, eval_path_field (ih passesInit) single, Value.at?_append_singleton]
    cases v.at? (names.map .key) <;> rfl

end Evaluation
end Jsonata
end Tabulate
