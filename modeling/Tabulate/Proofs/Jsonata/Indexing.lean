import Tabulate.Jsonata.Eval
import Tabulate.Proofs.Groq.Slices
import Tabulate.Proofs.Jsonata.Recovery
import Tabulate.Proofs.Outcomes

/-! An integer in brackets selects the same item in both languages: a GROQ query goes to its place, and a
JSONata expression asks of every item whether it is there. -/
namespace Tabulate.Jsonata

/-- A sequence of at most one item is that item, whatever it is. -/
theorem collapse_toList (item : Option Value) : collapse item.toList = item.getD .null := by
  cases item <;> rfl

/-- A number keeps the item at its place. -/
theorem keeps_number (n : Number) (place count : Nat) :
    keeps (.number n) place count = decide (placeOf count n.floor.toInt64 = place) := by
  simp only [keeps, placeOf, beq_eq_decide]
  congr 1
  split <;> split <;> first | rfl | omega

/-- A predicate that is the same number for all items selects the item at a position. -/
theorem eval_filter_number {root context v : Value} {left predicate : Node} {n : Number}
    (evalLeft : eval root context left = .ok v)
    (evalPredicate : ∀ item, eval root item predicate = .ok (.number n)) :
    eval root context (.filter left predicate) =
      .ok ((itemFrom? (sequence v) n.floor.toInt64).getD .null) := by
  have hitems : ((sequence v).zipIdx.filter fun place =>
      decide (placeOf (sequence v).length n.floor.toInt64 = place.2)).map Prod.fst =
      (itemFrom? (sequence v) n.floor.toInt64).toList := itemsAt_placeOf _ _
  rw [eval, evalLeft]
  simp only [bind, Except.bind]
  rw [filterM_eq_ok (p := fun place => decide (placeOf (sequence v).length n.floor.toInt64 = place.2)) ?_]
  · simp only [pure, Except.pure, hitems, collapse_toList]
  · rintro ⟨item, place⟩ -
    simp only [evalPredicate, ← keeps_number, pure, Except.pure]

section Reading
variable {fuel : Nat} {ts : Tokens} {i : Int} {rest : List Token}

private theorem stops_bracket (power : Nat) (rest : List Token) : Stops power (.symbol "]" :: rest) :=
  (ends_symbol (by decide) rest 0).stops_zero

private theorem opens_integer (i : Int) (rest : List Token) : Opens (Token.integer i ++ rest) := by
  cases i <;> exact ⟨_, _, rfl, by simp [closers]⟩

private theorem readExpression_natural {n power : Nat}
    (h : ts.tokens = .number (.ofNat n) :: .symbol "]" :: rest) :
    readExpression (fuel + 2) power ts = .ok (.literal (.number (.ofNat n)), ts.tail) := by
  have stops : Stops power ts.tail.tokens := Tokens.tokens_tail h ▸ stops_bracket power rest
  rw [readExpression, readOperand_atom (.natural n) h]
  exact readOperators_stop stops

private theorem finds_integer (h : ts.tokens = Token.integer i ++ .symbol "]" :: rest) (enough : 4 ≤ fuel) :
    Finds (readExpression fuel 0 ts) (fun node => ∀ root item, eval root item node = .ok (.number (.ofInt i)))
      (.symbol "]" :: rest) := by
  obtain ⟨steps, rfl⟩ := Nat.exists_eq_add_of_le' enough
  obtain ⟨n, rfl, hi⟩ | ⟨n, pos, rfl, hi⟩ := Token.integer_cases i
  · rw [hi] at h
    rw [readExpression_natural h]
    refine .ok (fun root item => ?_) (Tokens.tokens_tail h)
    rw [eval, Number.ofNat_eq_ofInt]
  · rw [hi] at h
    have htail := Tokens.tokens_tail h
    have hclose := Tokens.tokens_tail htail
    rw [readExpression, readOperand_minus h, readExpression_natural htail]
    refine ⟨.negate (.literal (.number (.ofNat n))) ts.position, ts.tail.tail, ?_, fun root item => ?_, hclose⟩
    · exact readOperators_stop (hclose ▸ stops_bracket 0 rest)
    · rw [eval, eval, ← Number.neg_ofNat pos]
      rfl

/-- An integer in brackets is read as what selects the item at that position. -/
theorem finds_index (exact : i.natAbs < twoTo 53)
    (h : ts.tokens = .dollar "" :: .symbol "[" :: (Token.integer i ++ [.symbol "]"])) (enough : 8 ≤ fuel) :
    Finds (readExpression fuel 0 ts)
      (fun node => ∀ items, eval (.array items) (.array items) node = .ok ((itemFrom? items i).getD .null)) [] := by
  obtain ⟨steps, rfl⟩ := Nat.exists_eq_add_of_le' enough
  have hopen := Tokens.tokens_tail h
  have enoughInside : 4 ≤ steps + 6 := by omega
  obtain ⟨predicate, us, hread, hpredicate, hus⟩ := finds_integer (Tokens.tokens_tail hopen) enoughInside
  have hend := Tokens.tokens_tail hus
  rw [readExpression, readOperand_atom .context h]
  simp only [bind, Except.bind]
  rw [readOperators_filter hopen (opens_integer i _) (Nat.zero_le _), hread]
  simp only [bind, Except.bind, expect_of_tokens hus]
  rw [readOperators_stop (hend ▸ stops_nil 0)]
  refine .ok (fun items => ?_) hend
  rw [eval_filter_number (eval.eq_2 ..) (hpredicate _), Number.toInt64_floor_ofInt exact]
  rfl

end Reading

def indexText (i : Int) : String := "[" ++ toString i ++ "]"

private theorem isText_index (i : Int) :
    Token.IsText false (.symbol "[" :: (Token.integer i ++ [.symbol "]"])) (indexText i).toList := by
  have hclose : Token.IsText false [.symbol "]"] ("]".toList ++ []) := Token.IsText.nil.mark _ (by decide) (by decide)
  have hnumber := hclose.integer i ⟨by decide, by decide, by decide, nofun⟩
  simpa [indexText] using hnumber.mark "[" (by decide) (by decide)

/-- In both languages an integer in brackets selects the item at that position, or null if there is none. -/
theorem evaluate_index (items : List Value) {i : Int} (exact : i.natAbs < twoTo 53) :
    ∃ query expression, Groq.Query.parse ("*" ++ indexText i) = .ok query ∧
      Expression.parse ("$" ++ indexText i) = .ok expression ∧
      query.evaluate (.array items) = (itemFrom? items i).getD .null ∧
      expression.evaluate (.array items) = .ok ((itemFrom? items i).getD .null) := by
  have hquery : Token.IsText false (.symbol "*" :: .symbol "[" :: (Token.integer i ++ [.symbol "]"]))
      ("*" ++ indexText i).toList := by
    rw [String.toList_append]
    exact (isText_index i).mark "*" (by decide) (by decide)
  have hexpression : Token.IsText false (.dollar "" :: .symbol "[" :: (Token.integer i ++ [.symbol "]"]))
      ("$" ++ indexText i).toList := by
    rw [String.toList_append]
    have hhead : (indexText i).toList = '[' :: ((toString i).toList ++ [']']) := by simp [indexText]
    refine .token (.dollar ?_ ?_) (isText_index i) <;> rw [hhead]
    · exact ⟨by decide +kernel, nofun⟩
    · exact fun h => absurd (Option.some.inj h) (by decide)
  obtain ⟨node, hparse, hnode⟩ := Expression.parse_of_finds hexpression
    fun hts enough => finds_index exact hts (by rw [Enough, List.length_cons, List.length_cons] at enough; omega)
  have hposition := Groq.Query.parse_of_readSegment hquery (List.cons_ne_nil _ _) fun hts =>
    (Groq.WritesSegment.index exact).finds (hts.trans (List.append_nil _).symm)
  refine ⟨_, _, hposition, hparse, ?_, hnode items⟩
  rw [itemFrom?_eq_placeOf, ← Groq.fromEnd_eq_placeOf]
  rfl

/-- The second last of three items is one item, even if it is an array. -/
theorem evaluate_index_array :
    let items := [.string "a", .array [.null], .null]
    (-2 : Int).natAbs < twoTo 53 ∧ ∃ query expression, Groq.Query.parse "*[-2]" = .ok query ∧
      Expression.parse "$[-2]" = .ok expression ∧ query.evaluate (.array items) = .array [.null] ∧
      expression.evaluate (.array items) = .ok (.array [.null]) := by
  intro items
  have exact : (-2 : Int).natAbs < twoTo 53 := by decide
  have hitem : itemFrom? items (-2) = some (.array [.null]) := rfl
  obtain ⟨query, expression, hquery, hexpression, hevaluated⟩ := evaluate_index items exact
  rw [hitem] at hevaluated
  exact ⟨exact, query, expression, hquery, hexpression, hevaluated⟩

end Tabulate.Jsonata
