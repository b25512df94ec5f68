import Tabulate.Proofs.Number.Shortest

/-! The text of a finite number that shows a fraction is a decimal that reads back as the number, so
different numbers have different texts. -/
namespace Tabulate

def IsDigits (text : List Char) : Prop := ∀ c ∈ text, c.isDigit = true

def powerText (power : Int) : List Char :=
  (if power < 0 then '-' else '+') :: (toString power.natAbs).toList

/-- The decimals that are written with a point or with a power of ten. -/
inductive Numeral : List Char → Decimal → Prop
  | point {whole fraction : List Char} (some : whole ≠ []) (h : IsDigits (whole ++ fraction)) :
      Numeral (whole ++ '.' :: fraction) ⟨digitsValue (whole ++ fraction), -fraction.length⟩
  | power {digit : Char} (h : IsDigits [digit]) (power : Int) :
      Numeral (digit :: 'e' :: powerText power) ⟨digitsValue [digit], power⟩
  | pointPower {digit : Char} {fraction : List Char} (h : IsDigits (digit :: fraction)) (power : Int) :
      Numeral (digit :: '.' :: (fraction ++ 'e' :: powerText power))
        ⟨digitsValue (digit :: fraction), power - fraction.length⟩

def IsNumeric (c : Char) : Prop := c.isDigit = true ∨ c ∈ ['-', '+', '.', 'e']

instance : DecidablePred IsNumeric := fun c =>
  inferInstanceAs (Decidable (c.isDigit = true ∨ c ∈ ['-', '+', '.', 'e']))

section Shape

private theorem isNumeric_of_isDigits {text : List Char} (h : IsDigits text) : ∀ c ∈ text, IsNumeric c :=
  fun c hc => .inl (h c hc)

private theorem isNumeric_powerText (power : Int) : ∀ c ∈ 'e' :: powerText power, IsNumeric c := by
  have hdigits : IsDigits (toString power.natAbs).toList := by
    rw [Nat.toString_eq_ofList_toDigits, String.toList_ofList]
    exact isDigit_toDigits
  rw [powerText, List.forall_mem_cons, List.forall_mem_cons]
  refine ⟨.inr (by decide), ?_, isNumeric_of_isDigits hdigits⟩
  split <;> exact .inr (by decide)

variable {text : List Char} {d : Decimal}

private theorem Numeral.isNumeric (h : Numeral text d) : ∀ c ∈ text, IsNumeric c := by
  have hpoint : IsNumeric '.' := .inr (by decide)
  cases h with
  | point _ h =>
    obtain ⟨hw, hf⟩ := List.forall_mem_append.mp h
    exact List.forall_mem_append.mpr ⟨isNumeric_of_isDigits hw,
      List.forall_mem_cons.mpr ⟨hpoint, isNumeric_of_isDigits hf⟩⟩
  | power h power =>
    exact List.forall_mem_cons.mpr ⟨.inl (h _ List.mem_cons_self), isNumeric_powerText power⟩
  | pointPower h power =>
    obtain ⟨hd, hf⟩ := List.forall_mem_cons.mp h
    exact List.forall_mem_cons.mpr ⟨.inl hd, List.forall_mem_cons.mpr ⟨hpoint,
      List.forall_mem_append.mpr ⟨isNumeric_of_isDigits hf, isNumeric_powerText power⟩⟩⟩

/-- No integer is written like that. -/
theorem Numeral.marked (h : Numeral text d) : '.' ∈ text ∨ 'e' ∈ text := by
  cases h <;> simp

theorem Numeral.starts (h : Numeral text d) : ∃ c rest, text = c :: rest ∧ c.isDigit = true := by
  cases h with
  | @point whole fraction some h =>
    obtain ⟨c, whole, rfl⟩ := List.exists_cons_of_ne_nil some
    exact ⟨c, _, rfl, h c List.mem_cons_self⟩
  | power h | pointPower h => exact ⟨_, _, rfl, h _ List.mem_cons_self⟩

end Shape

section Reading

private theorem unsigned_toDigits (n : Nat) :
    Number.readExponent.unsigned (Nat.toDigits 10 n) = some (n : Int) := by
  obtain ⟨d, digits, h⟩ := List.exists_cons_of_ne_nil (Nat.toDigits_ne_nil (n := n) (b := 10))
  have hvalue := digitsValue_toDigits n
  rw [Number.readExponent.unsigned, takeDigits_toDigits]
  rw [h] at hvalue ⊢
  simp only [hvalue]

private theorem readExponent_powerText (power : Int) :
    Number.readExponent (powerText power) = some power := by
  rw [powerText, Nat.toString_eq_ofList_toDigits, String.toList_ofList]
  split
  next h =>
    rw [Number.readExponent, unsigned_toDigits, Option.map_some]
    congr 1
    omega
  next h =>
    rw [Number.readExponent, unsigned_toDigits]
    congr 1
    omega

/-- What is written for a decimal is read as the decimal. -/
theorem Numeral.readDecimal {text : List Char} {d : Decimal} (h : Numeral text d) (negative : Bool) :
    Number.readDecimal negative text = some (Number.ofDecimal negative d.digits d.exponent) := by
  have ends : ∀ mark : Char, mark.isDigit = false → ∀ rest, ∀ c ∈ (mark :: rest).head?,
      c.isDigit = false := by
    intro mark hmark rest c hc
    cases hc
    exact hmark
  cases h with
  | @point whole fraction some h =>
    obtain ⟨hw, hf⟩ := List.forall_mem_append.mp h
    have hwhole := takeDigits_append hw (ends '.' rfl fraction)
    have hfraction : takeDigits (fraction ++ []) = (fraction, []) := takeDigits_append hf nofun
    rw [List.append_nil] at hfraction
    simp [Number.readDecimal, hwhole, hfraction, some]
  | @power digit h power =>
    have hwhole := takeDigits_append h (ends 'e' rfl (powerText power))
    rw [List.singleton_append] at hwhole
    simp [Number.readDecimal, hwhole, readExponent_powerText]
  | @pointPower digit fraction h power =>
    obtain ⟨hw, hf⟩ := List.forall_mem_append.mp (show IsDigits ([digit] ++ fraction) from h)
    have hwhole := takeDigits_append hw (ends '.' rfl (fraction ++ 'e' :: powerText power))
    have hfraction := takeDigits_append hf (ends 'e' rfl (powerText power))
    rw [List.singleton_append] at hwhole
    simp [Number.readDecimal, hwhole, hfraction, readExponent_powerText]

end Reading

namespace Decimal

private theorem text_eq (d : Decimal) : d.text = Nat.toDigits 10 d.digits := by
  rw [text, Nat.toString_eq_ofList_toDigits, String.toList_ofList]

private theorem digitsValue_text (d : Decimal) : digitsValue d.text = d.digits := by
  rw [text_eq, digitsValue_toDigits]

private theorem isDigits_text (d : Decimal) : IsDigits d.text := by
  rw [text_eq]
  exact isDigit_toDigits

private theorem text_ne_nil (d : Decimal) : d.text ≠ [] := by
  rw [text_eq]
  exact Nat.toDigits_ne_nil

private theorem isDigits_zeros (count : Nat) : IsDigits (List.replicate count '0') :=
  List.forall_mem_replicate.mpr (.inr rfl)

private theorem numeral_whole {d : Decimal} (h : 0 ≤ d.exponent) :
    Numeral (d.positional ++ ".0".toList) ⟨d.digits * tenTo (d.exponent.toNat + 1), -1⟩ := by
  have hzeros : d.text ++ List.replicate d.exponent.toNat '0' ++ ['0'] =
      d.text ++ List.replicate (d.exponent.toNat + 1) '0' := by
    rw [List.append_assoc, List.replicate_succ']
  have hdigits : IsDigits (d.text ++ List.replicate d.exponent.toNat '0' ++ ['0']) := by
    rw [hzeros]
    exact List.forall_mem_append.mpr ⟨isDigits_text d, isDigits_zeros _⟩
  have hnumeral := Numeral.point (List.append_ne_nil_of_left_ne_nil (text_ne_nil d) _) hdigits
  rw [hzeros, digitsValue_append_zeros, digitsValue_text] at hnumeral
  rw [positional, if_pos h]
  exact hnumeral

private theorem numeral_positional {d : Decimal} (h : d.exponent < 0) : Numeral d.positional d := by
  rw [positional, if_neg (by omega)]
  split
  next hp =>
    rw [point] at hp
    have hsome : d.text.take d.point.toNat ≠ [] := by
      rw [ne_eq, List.take_eq_nil_iff, not_or]
      exact ⟨by rw [point]; omega, text_ne_nil d⟩
    have hdigits : IsDigits (d.text.take d.point.toNat ++ d.text.drop d.point.toNat) := by
      rw [List.take_append_drop]
      exact isDigits_text d
    have hnumeral := Numeral.point hsome hdigits
    have hlength : -((d.text.length - d.point.toNat : Nat) : Int) = d.exponent := by
      rw [point]
      omega
    rwa [List.take_append_drop, digitsValue_text, List.length_drop, hlength] at hnumeral
  next hp =>
    rw [point] at hp
    have hdigits : IsDigits (['0'] ++ (List.replicate (-d.point).toNat '0' ++ d.text)) :=
      List.forall_mem_append.mpr ⟨isDigits_zeros 1,
        List.forall_mem_append.mpr ⟨isDigits_zeros _, isDigits_text d⟩⟩
    have hvalue : digitsValue (['0'] ++ (List.replicate (-d.point).toNat '0' ++ d.text)) = d.digits := by
      rw [← List.append_assoc, ← List.replicate_one, List.replicate_append_replicate,
        digitsValue_zeros_append, digitsValue_text]
    have hlength : -((List.replicate (-d.point).toNat '0' ++ d.text).length : Int) = d.exponent := by
      rw [List.length_append, List.length_replicate, point]
      omega
    have hnumeral := Numeral.point (List.cons_ne_nil _ _) hdigits
    rwa [hvalue, hlength] at hnumeral

private theorem numeral_scientific (d : Decimal) : Numeral d.scientific d := by
  have hvalue := digitsValue_text d
  have hdigits := isDigits_text d
  rw [scientific, point]
  generalize htext : d.text = text at hvalue hdigits
  obtain _ | ⟨digit, _ | ⟨next, more⟩⟩ := text
  · exact absurd htext (text_ne_nil d)
  · have hexponent : (([digit].length : Nat) : Int) + d.exponent - 1 = d.exponent := by
      rw [List.length_singleton]
      omega
    have hd : (⟨digitsValue [digit], (([digit].length : Nat) : Int) + d.exponent - 1⟩ : Decimal) = d := by
      rw [hvalue, hexponent]
    have hnumeral := Numeral.power hdigits ((([digit].length : Nat) : Int) + d.exponent - 1)
    rw [hd] at hnumeral
    exact hnumeral
  · have hexponent : (((digit :: next :: more).length : Nat) : Int) + d.exponent - 1
        - ((next :: more).length : Nat) = d.exponent := by
      rw [List.length_cons]
      omega
    have hnumeral := Numeral.pointPower hdigits ((digit :: next :: more).length + d.exponent - 1)
    rw [hvalue, hexponent] at hnumeral
    exact hnumeral

private theorem units_whole {d : Decimal} (h : 0 ≤ d.exponent) :
    (⟨d.digits * tenTo (d.exponent.toNat + 1), -1⟩ : Decimal).units = d.units := by
  have hsplit : d.digits * tenTo (d.exponent.toNat + 1) * Number.one =
      d.digits * tenTo d.exponent.toNat * Number.one * tenTo 1 := by
    rw [tenTo_add]
    ring
  have hten : tenTo (-(-1 : Int)).toNat = 1 * tenTo 1 := rfl
  have hneg : ¬ (-1 : Int) ≥ 0 := by decide
  rw [units, units, if_pos h, if_neg hneg, hsplit, hten, roundUnits_mul _ _ (tenTo_pos 1)]

end Decimal

namespace Number

private theorem toList_withSign (negative : Bool) (text : List Char) :
    (withSign negative text).toList = if negative then '-' :: text else text :=
  String.toList_ofList

/-- The text of a finite number is a sign, if there is one, and a decimal that stands for the number. -/
theorem exists_numeral_floatText {n : Number} (h : n.isFinite = true) :
    ∃ negative text d, n.floatText = withSign negative text ∧ Numeral text d ∧
      ofDecimal negative d.digits d.exponent = n := by
  cases n with
  | nan | infinite => contradiction
  | finite negative m =>
    refine ⟨negative, ?_⟩
    rw [floatText]
    split
    next hzero =>
      have hnumeral := Numeral.point (List.cons_ne_nil '0' []) (Decimal.isDigits_zeros 2)
      obtain ⟨units, representable⟩ := m
      subst hzero
      exact ⟨_, _, rfl, hnumeral, rfl⟩
    next hsome =>
      have hunits := Decimal.units_shortest m.representable .toEven
      generalize Decimal.shortest .toEven m.units = d at hunits
      dsimp only
      split
      · split
        next hwhole =>
          exact ⟨_, _, rfl, Decimal.numeral_whole hwhole,
            ofDecimal_of_units ((Decimal.units_whole hwhole).trans hunits) hsome negative⟩
        next hfraction =>
          exact ⟨_, d, rfl, Decimal.numeral_positional (by omega),
            ofDecimal_of_units hunits hsome negative⟩
      · exact ⟨_, d, rfl, Decimal.numeral_scientific d, ofDecimal_of_units hunits hsome negative⟩

section FloatText
variable {n : Number} (h : n.isFinite = true)
include h

/-- A finite number is read back from its text. -/
theorem read?_floatText : read? n.floatText.toList = some n := by
  obtain ⟨negative, text, d, htext, hnumeral, rfl⟩ := exists_numeral_floatText h
  obtain ⟨c, rest, rfl, hc⟩ := hnumeral.starts
  rw [htext, toList_withSign]
  cases negative with
  | true => exact (readUnsigned_of_isDigit hc true rest).trans (hnumeral.readDecimal true)
  | false => exact (read?_of_isDigit hc rest).trans (hnumeral.readDecimal false)

theorem isNumeric_floatText : ∀ c ∈ n.floatText.toList, IsNumeric c := by
  obtain ⟨negative, text, d, htext, hnumeral, -⟩ := exists_numeral_floatText h
  rw [htext, toList_withSign]
  cases negative with
  | true => exact List.forall_mem_cons.mpr ⟨.inr (by decide), hnumeral.isNumeric⟩
  | false => exact hnumeral.isNumeric

theorem marked_floatText : '.' ∈ n.floatText.toList ∨ 'e' ∈ n.floatText.toList := by
  obtain ⟨negative, text, d, htext, hnumeral, -⟩ := exists_numeral_floatText h
  rw [htext, toList_withSign]
  cases negative with
  | true => exact hnumeral.marked.imp (List.mem_cons_of_mem _) (List.mem_cons_of_mem _)
  | false => exact hnumeral.marked

end FloatText

/-- Different finite numbers have different texts. -/
theorem floatText_inj {m n : Number} (hm : m.isFinite = true) (hn : n.isFinite = true)
    (h : m.floatText.toList = n.floatText.toList) : m = n := by
  have hread := read?_floatText hm
  rw [h, read?_floatText hn] at hread
  exact (Option.some.inj hread).symm

end Number
end Tabulate
