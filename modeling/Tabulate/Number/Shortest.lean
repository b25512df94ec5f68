import Tabulate.Number.Basic

/-! The fewest decimal digits that read back as a given number, and the two texts
that are made of them: positional text and float text. -/
namespace Tabulate

structure Decimal where
  digits : Nat
  exponent : Int
deriving DecidableEq

/-- How a number midway between two equally short decimals is written. -/
inductive Tie
  | upward
  | toEven
deriving DecidableEq

namespace Decimal

def units (d : Decimal) : Nat :=
  if d.exponent ≥ 0 then roundUnits (d.digits * tenTo d.exponent.toNat * Number.one) 1
  else roundUnits (d.digits * Number.one) (tenTo (-d.exponent).toNat)

/-- The two neighbours of a count of units among the multiples of `10 ^ exponent`, nearer first. -/
def neighbours (tie : Tie) (count : Nat) (exponent : Int) : List Decimal :=
  let num := if exponent ≥ 0 then count else count * tenTo (-exponent).toNat
  let den := if exponent ≥ 0 then tenTo exponent.toNat * Number.one else Number.one
  let low := num / den
  let rest := num % den
  let below : Decimal := ⟨low, exponent⟩
  let above : Decimal := ⟨low + 1, exponent⟩
  let lowFirst := 2 * rest < den || (2 * rest == den && tie == .toEven && low % 2 == 0)
  if lowFirst then [below, above] else [above, below]

/-- An exponent above that of every decimal that reads back as the count. -/
private def startExponent (count : Nat) : Int :=
  (((count.log2 : Int) - 1072) * 30103).fdiv 100000 + 1

def exact (count : Nat) : Decimal := ⟨count * Nat.pow 5 1074, -1074⟩

def search (tie : Tie) (count : Nat) : Nat → Int → Decimal
  | 0, _ => exact count
  | fuel + 1, exponent =>
    match (neighbours tie count exponent).find? fun d => d.digits != 0 && d.units == count with
    | some d => d
    | none => search tie count fuel (exponent - 1)

/-- The decimal of fewest digits that reads back as the count; of two, the nearer. -/
def shortest (tie : Tie) (count : Nat) : Decimal :=
  search tie count 24 (startExponent count)

def text (d : Decimal) : List Char := (toString d.digits).toList

def point (d : Decimal) : Int := d.text.length + d.exponent

/-- All digits around a decimal point, which is left out if no digit follows it. -/
def positional (d : Decimal) : List Char :=
  if d.exponent ≥ 0 then d.text ++ List.replicate d.exponent.toNat '0'
  else if d.point > 0 then d.text.take d.point.toNat ++ '.' :: d.text.drop d.point.toNat
  else '0' :: '.' :: (List.replicate (-d.point).toNat '0' ++ d.text)

def scientific (d : Decimal) : List Char :=
  let power := d.point - 1
  let mantissa := match d.text with
    | [] => []
    | [digit] => [digit]
    | digit :: more => digit :: '.' :: more
  mantissa ++ 'e' :: (if power < 0 then '-' else '+') :: (toString power.natAbs).toList

end Decimal

namespace Number

def withSign (negative : Bool) (text : List Char) : String :=
  String.ofList (if negative then '-' :: text else text)

def positional : Number → String
  | nan => "NaN"
  | infinite negative => withSign negative "inf".toList
  | finite negative magnitude =>
    if magnitude.units = 0 then withSign negative ['0']
    else withSign negative (Decimal.shortest .upward magnitude.units).positional

/-- The text of a number that always shows that it is one with a fraction: positional from
`0.00001` up to sixteen digits before the point, scientific beyond. -/
def floatText : Number → String
  | nan => "null"
  | infinite _ => "null"
  | finite negative magnitude =>
    if magnitude.units = 0 then withSign negative "0.0".toList
    else
      let d := Decimal.shortest .toEven magnitude.units
      if -4 ≤ d.point ∧ d.point ≤ 16 then
        withSign negative (if d.exponent ≥ 0 then d.positional ++ ".0".toList else d.positional)
      else withSign negative d.scientific

/-- Whether a number is written as an integer: whole and below `9 * 10 ^ 15`. -/
def isIntegral : Number → Bool
  | finite negative magnitude =>
    (finite negative magnitude).isWhole && magnitude.units < 9000000000000000 * one
  | _ => false

/-- The text of a number: without a fraction if it is integral. -/
def text (n : Number) : String :=
  if n.isIntegral then toString n.toInt64 else n.positional

end Number
end Tabulate
