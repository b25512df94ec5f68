import Tabulate.Groq.Eval
import Tabulate.Proofs.Groq.Recovery
import Tabulate.Proofs.Number.Large
import Tabulate.Proofs.Positions
import Tabulate.Proofs.Token.Adjacent

/-! A slice holds the items at the places of its range. Where its positions are words, so is every index that
it is computed from. -/
namespace Tabulate.Groq

section Words

def signedWord? (n : Int) : Option Int := if Word.isSigned 64 n then some n else none

def unsignedWord? (n : Int) : Option Nat := if Word.isUnsigned 64 n then some n.toNat else none

/-- A position that is counted from the end if it is negative, computed in words. -/
def fromEndInWords? (count : Nat) (position : Int) : Option Int := do
  let count ← signedWord? count
  if position < 0 then signedWord? (count + position) else return position

/-- The items from one position to another, with every index computed in words. -/
def sliceInWords? (items : List Value) (first last : Int) (inclusive : Bool) : Option (List Value) := do
  let count ← signedWord? items.length
  let resolvedFirst ← fromEndInWords? items.length first
  let resolvedLast ← fromEndInWords? items.length last
  let low ← unsignedWord? (Max.max 0 (Min.min resolvedFirst count))
  let high ← unsignedWord? (Max.max 0 (Min.min resolvedLast count))
  let extra : Nat := if inclusive ∧ 0 ≤ resolvedLast ∧ resolvedLast < count then 1 else 0
  let high ← unsignedWord? (high + extra)
  return (items.drop low).take (high - low)

variable {n position : Int} {count : Nat}

private theorem isSigned_iff :
    Word.isSigned 64 n = true ↔ -9223372036854775808 ≤ n ∧ n ≤ 9223372036854775807 := by
  have hpower : (twoTo 63 : Int) = 9223372036854775808 := rfl
  simp [Word.isSigned, Word.least, Word.greatest, hpower]

private theorem unsignedWord?_natCast (h : count ≤ 9223372036854775808) : unsignedWord? count = some count := by
  have hpower : (twoTo 64 : Int) = 18446744073709551616 := rfl
  have hcount : (count : Int) < 18446744073709551616 := by omega
  rw [unsignedWord?, if_pos, Int.toNat_natCast]
  simp [Word.isUnsigned, hpower, hcount]

/-- No sum of a length and a negative position leaves a word. -/
theorem fromEndInWords?_eq (fits : Word.isSigned 64 count = true) (isWord : Word.isSigned 64 position = true) :
    fromEndInWords? count position = some (fromEnd count position) := by
  have hcount := isSigned_iff.mp fits
  have hposition := isSigned_iff.mp isWord
  simp only [fromEndInWords?, fromEnd, signedWord?, fits, if_true, bind, Option.bind_some]
  split
  · exact if_pos (isSigned_iff.mpr (by omega))
  · rfl

/-- No index of a slice leaves a word. -/
theorem sliceInWords?_eq {items : List Value} {first last : Int}
    (fits : Word.isSigned 64 items.length = true) (isFirst : Word.isSigned 64 first = true)
    (isLast : Word.isSigned 64 last = true) (inclusive : Bool) :
    sliceInWords? items first last inclusive = some (sliceOf items first last inclusive) := by
  have hcount := isSigned_iff.mp fits
  have hwhole : signedWord? items.length = some (items.length : Int) := if_pos fits
  have hclamp (k : Int) : Max.max 0 (Min.min k items.length) = ((Min.min k items.length).toNat : Int) := by omega
  have hlow (k : Int) : unsignedWord? (Min.min k items.length).toNat = some (Min.min k items.length).toNat :=
    unsignedWord?_natCast (by omega)
  have hhigh (k : Int) (extra : Nat) (h : extra ≤ 1) :
      unsignedWord? ((Min.min k items.length).toNat + extra : Int) =
        some ((Min.min k items.length).toNat + extra) := by
    rw [← Int.natCast_add]
    exact unsignedWord?_natCast (by omega)
  have hextra (inRange : Prop) [Decidable inRange] : (if inRange then 1 else 0) ≤ 1 := by
    split <;> omega
  simp only [sliceInWords?, hwhole, bind, Option.bind_some]
  rw [fromEndInWords?_eq fits isFirst, Option.bind_some, fromEndInWords?_eq fits isLast, Option.bind_some,
    hclamp, hlow, Option.bind_some, hclamp, hlow, Option.bind_some, hhigh _ _ (hextra _), Option.bind_some]
  rfl

end Words

/-- The place of a position is what it is resolved to. -/
theorem fromEnd_eq_placeOf (count : Nat) (position : Int) : fromEnd count position = placeOf count position := by
  rw [fromEnd, placeOf]
  split <;> split <;> omega

def InRange (count : Nat) (first last : Int) (inclusive : Bool) (place : Nat) : Prop :=
  placeOf count first ≤ place ∧ if inclusive then place ≤ placeOf count last else place < placeOf count last

instance (count : Nat) (first last : Int) (inclusive : Bool) : DecidablePred (InRange count first last inclusive) :=
  fun _ => inferInstanceAs (Decidable (_ ∧ _))

private theorem sliceOf_eq_itemsAt (items : List Value) (first last : Int) (inclusive : Bool) :
    sliceOf items first last inclusive = itemsAt items (InRange items.length first last inclusive) := by
  simp only [sliceOf]
  rw [← itemsAt_between]
  apply itemsAt_congr
  intro place hplace
  simp only [InRange, fromEnd_eq_placeOf]
  generalize placeOf items.length first = low
  generalize placeOf items.length last = high
  cases inclusive with
  | true => simp only [true_and, if_true]; split <;> omega
  | false => simp only [Bool.false_eq_true, false_and, if_false]; omega

def rangeMark (inclusive : Bool) : String := if inclusive then ".." else "..."

def sliceText (first last : Int) (inclusive : Bool) : String :=
  "*[" ++ toString first ++ rangeMark inclusive ++ toString last ++ "]"

private theorem rangeMark_cases (inclusive : Bool) (rest : List Char) : rangeMark inclusive ∈ Token.symbols ∧
    (∀ c ∈ Token.continuations (rangeMark inclusive), c = '.') ∧
      Token.EndsNumber ((rangeMark inclusive).toList ++ rest) := by
  -- only a point behind the digits makes it another number
  cases inclusive with
  | true =>
    have hpoint : Token.continuations (rangeMark true) = ['.'] := by decide
    exact ⟨by decide, by simp [hpoint], by decide, by decide, by decide, fun _ => rfl⟩
  | false =>
    have hlongest : Token.continuations (rangeMark false) = [] := by decide
    exact ⟨by decide, by simp [hlongest], by decide, by decide, by decide, fun _ => rfl⟩

private theorem isText_slice (first last : Int) (inclusive : Bool) :
    Token.IsText false (.symbol "*" :: .symbol "[" :: (Token.integer first ++
      .symbol (rangeMark inclusive) :: (Token.integer last ++ [.symbol "]"])))
      (sliceText first last inclusive).toList := by
  have hclose : Token.IsText false [.symbol "]"] ("]".toList ++ []) := Token.IsText.nil.mark _ (by decide) (by decide)
  have hlast := hclose.integer last ⟨by decide, by decide, by decide, nofun⟩
  obtain ⟨mem, hpoint, ends⟩ := rangeMark_cases inclusive ((toString last).toList ++ ("]".toList ++ []))
  have hrange := hlast.mark_of_head _ mem <| by
    obtain ⟨c, more, hhead, hc⟩ := Token.toString_append_cases last ("]".toList ++ [])
    rw [hhead]
    rintro _ ⟨⟩ hmem
    rw [hpoint c hmem] at hc
    exact absurd hc (by decide)
  have hopen := (hrange.integer first ends).mark "[" (by decide) (by decide)
  have hstar := hopen.mark "*" (by decide) (by decide)
  simpa [sliceText] using hstar

section Reading
variable {i first last : Int} {count : Nat}

private theorem readAs_cases (isWord : Word.isSigned 64 i = true) :
    (Number.ofNat i.natAbs).isWhole = true ∧
      (readAs i = i ∨ (twoTo 53 ≤ i ∧ twoTo 53 ≤ readAs i) ∨ (i ≤ -twoTo 53 ∧ readAs i ≤ -twoTo 53)) := by
  -- the two differ only if both are far out
  rcases Nat.lt_or_ge i.natAbs (twoTo 53) with exact | low
  · exact ⟨Number.isWhole_ofNat exact, .inl (readAs_eq_self exact)⟩
  · have hpower : twoTo 64 = 18446744073709551616 := rfl
    have hword := isSigned_iff.mp isWord
    have high : i.natAbs < twoTo 64 := by omega
    have hread := Number.le_toInt64_ofNat low high
    refine ⟨Number.isWhole_ofNat_of_le low high, .inr ?_⟩
    rw [readAs]
    split
    next negative => exact .inr ⟨by omega, by omega⟩
    next nonneg => exact .inl ⟨by omega, hread⟩

private theorem placeOf_readAs (isWord : Word.isSigned 64 i = true) (short : count < twoTo 53) :
    placeOf count (readAs i) = placeOf count i ∨
      ((count : Int) ≤ placeOf count (readAs i) ∧ (count : Int) ≤ placeOf count i) ∨
      (placeOf count (readAs i) < 0 ∧ placeOf count i < 0) := by
  have hshort : (count : Int) < twoTo 53 := Int.ofNat_lt.mpr short
  have hpos : (0 : Int) < twoTo 53 := Int.ofNat_lt.mpr (twoTo_pos 53)
  -- What is rounded lies behind the end of the list, or before its start.
  obtain heq | ⟨hi, hread⟩ | ⟨hi, hread⟩ := (readAs_cases isWord).2
  · exact .inl (congrArg _ heq)
  · refine .inr (.inl ?_)
    rw [placeOf, placeOf, if_pos (by omega), if_pos (by omega)]
    omega
  · refine .inr (.inr ?_)
    rw [placeOf, placeOf, if_neg (by omega), if_neg (by omega)]
    omega

private theorem sliceOf_readAs (isFirst : Word.isSigned 64 first = true) (isLast : Word.isSigned 64 last = true)
    {items : List Value} (short : items.length < twoTo 53) (inclusive : Bool) :
    sliceOf items (readAs first) (readAs last) inclusive = sliceOf items first last inclusive := by
  rw [sliceOf_eq_itemsAt, sliceOf_eq_itemsAt]
  apply itemsAt_congr
  intro place hplace
  have hfirst := placeOf_readAs isFirst short
  have hlast := placeOf_readAs isLast short
  cases inclusive with
  | true => simp only [InRange, if_true]; omega
  | false => simp only [InRange, Bool.false_eq_true, if_false]; omega

/-- The text of a slice is read as the slice of the positions that its digits are read as. -/
theorem parse_sliceText (isFirst : Word.isSigned 64 first = true) (isLast : Word.isSigned 64 last = true)
    (inclusive : Bool) :
    Query.parse (sliceText first last inclusive) = .ok ⟨[.slice (readAs first) (readAs last) inclusive]⟩ := by
  refine Query.parse_of_readSegment (isText_slice first last inclusive) (List.cons_ne_nil _ _) fun hts => ?_
  obtain ⟨us, range, hus⟩ :=
    readRange?_slice inclusive (readAs_cases isFirst).1 (readAs_cases isLast).1 (Tokens.tokens_tail hts)
  rw [readSegment_range hts range]
  exact .ok rfl hus

end Reading

/-- A slice selects the items of its range. At positions of 64 bits none of its indexes overflows, and its text
selects the same items from any list of less than `2 ^ 53`, though digits of its positions may be lost. -/
theorem evaluate_slice (items : List Value) (first last : Int) (inclusive : Bool) :
    Query.evaluate ⟨[.slice first last inclusive]⟩ (.array items) =
        .array (itemsAt items (InRange items.length first last inclusive)) ∧
      (Word.isSigned 64 first = true → Word.isSigned 64 last = true →
        (Word.isSigned 64 items.length = true →
          sliceInWords? items first last inclusive = some (sliceOf items first last inclusive)) ∧
        (items.length < twoTo 53 →
          ∃ query, Query.parse (sliceText first last inclusive) = .ok query ∧
            query.evaluate (.array items) =
              .array (itemsAt items (InRange items.length first last inclusive)))) := by
  rw [← sliceOf_eq_itemsAt]
  refine ⟨rfl, fun isFirst isLast => ⟨fun fits => sliceInWords?_eq fits isFirst isLast inclusive, fun short => ?_⟩⟩
  refine ⟨_, parse_sliceText isFirst isLast inclusive, ?_⟩
  rw [← sliceOf_readAs isFirst isLast short]
  rfl

/-- The last two of three items, one of them an array and one null; the end is a position that is rounded. -/
theorem evaluate_slice_lastTwo :
    let items := [.string "a", .array [.null], .null]
    Word.isSigned 64 (-2) = true ∧ Word.isSigned 64 9007199254740993 = true ∧
      Word.isSigned 64 items.length = true ∧ items.length < twoTo 53 ∧
      Query.evaluate ⟨[.slice (-2) 9007199254740993 false]⟩ (.array items) = .array [.array [.null], .null] ∧
      sliceInWords? items (-2) 9007199254740993 false = some [.array [.null], .null] ∧
      ∃ query, Query.parse "*[-2...9007199254740993]" = .ok query ∧
        query.evaluate (.array items) = .array [.array [.null], .null] := by
  intro items
  have isWord : Word.isSigned 64 (-2) = true ∧ Word.isSigned 64 9007199254740993 = true := by decide
  have short : Word.isSigned 64 items.length = true ∧ items.length < twoTo 53 := by decide
  have htext : sliceText (-2) 9007199254740993 false = "*[-2...9007199254740993]" := by decide
  obtain ⟨hitems, hwords⟩ := evaluate_slice items (-2) 9007199254740993 false
  obtain ⟨hslice, hquery⟩ := hwords isWord.1 isWord.2
  rw [htext] at hquery
  exact ⟨isWord.1, isWord.2, short.1, short.2, hitems, hslice short.1, hquery short.2⟩

end Tabulate.Groq
