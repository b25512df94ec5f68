import Tabulate.Number.Word

/-! Binary64 numbers as exact integer counts of the least positive unit `2 ^ -1074`.
Every operation is an exact ratio of counts, rounded once to 53 significant bits. -/
namespace Tabulate

/-- The least count of units that is too large for a finite number. -/
def overflow : Nat := twoTo 2098

/-- A count of least units that a binary64 number can hold: below the overflow bound
and with at most 53 significant bits. -/
def Representable (units : Nat) : Prop :=
  units < overflow ∧ twoTo (units.log2 - 52) ∣ units

structure Magnitude where
  units : Nat
  representable : Representable units
deriving DecidableEq

/-- A binary64 number; the sign of a finite number is kept apart, so zero has two forms. -/
inductive Number
  | nan
  | infinite (negative : Bool)
  | finite (negative : Bool) (magnitude : Magnitude)
deriving DecidableEq

/-- The natural number nearest to `num / den`; a tie goes to the even neighbour. -/
def nearestEven (num den : Nat) : Nat :=
  let low := num / den
  let rest := num % den
  if 2 * rest < den then low
  else if den < 2 * rest then low + 1
  else low + low % 2

/-- The ratio `num / den` rounded to a whole count of 53 significant bits. -/
def roundUnits (num den : Nat) : Nat :=
  let step := twoTo ((num / den).log2 - 52)
  nearestEven num (den * step) * step

theorem nearestEven_le (num den : Nat) : nearestEven num den ≤ num / den + 1 := by
  simp only [nearestEven]
  split
  · omega
  · split <;> omega

private theorem div_step_lt (n : Nat) : n / twoTo (n.log2 - 52) < twoTo 53 := by
  rw [Nat.div_lt_iff_lt_mul (twoTo_pos _), ← twoTo_add]
  exact Nat.lt_of_lt_of_le (lt_twoTo_log2 n) (twoTo_le_twoTo (by omega))

private theorem dvd_mul_step {head shift : Nat} (h : head ≤ twoTo 53) :
    twoTo ((head * twoTo shift).log2 - 52) ∣ head * twoTo shift := by
  rcases Nat.lt_or_eq_of_le h with h | rfl
  · by_cases zero : head * twoTo shift = 0
    · rw [zero]
      exact Nat.dvd_zero _
    · have : (head * twoTo shift).log2 < 53 + shift := by
        apply log2_lt_of_lt_twoTo zero
        rw [twoTo_add]
        exact Nat.mul_lt_mul_of_pos_right h (twoTo_pos _)
      exact Nat.dvd_mul_left_of_dvd (twoTo_dvd_twoTo (by omega)) _
  · rw [← twoTo_add, log2_twoTo]
    exact twoTo_dvd_twoTo (by omega)

theorem dvd_roundUnits (num den : Nat) :
    twoTo ((roundUnits num den).log2 - 52) ∣ roundUnits num den := by
  apply dvd_mul_step
  refine Nat.le_trans (nearestEven_le _ _) ?_
  rw [← Nat.div_div_eq_div_mul]
  exact div_step_lt _

namespace Number

/-- The number `num / den` least units from zero, rounded; infinite beyond the overflow bound. -/
def ofRatio (negative : Bool) (num den : Nat) : Number :=
  if h : roundUnits num den < overflow then
    finite negative ⟨roundUnits num den, h, dvd_roundUnits num den⟩
  else infinite negative

/-- The number of least units in one. -/
def one : Nat := twoTo 1074

theorem overflow_pos : 0 < overflow := by decide +kernel

theorem representable_zero : Representable 0 := ⟨overflow_pos, Nat.dvd_zero _⟩

def zero (negative : Bool) : Number := finite negative ⟨0, representable_zero⟩

instance : Inhabited Number := ⟨zero false⟩

def ofInt (n : Int) : Number := ofRatio (n < 0) (n.natAbs * one) 1

def ofNat (n : Nat) : Number := ofRatio false (n * one) 1

instance (n : Nat) : OfNat Number n := ⟨ofNat n⟩

def signed (negative : Bool) (units : Nat) : Int :=
  if negative then -(units : Int) else units

/-- The place of a number on the line of least units, with the infinities just beyond
the finite numbers; a number that is not a number has no place. -/
def place : Number → Option Int
  | nan => none
  | infinite negative => some (signed negative overflow)
  | finite negative magnitude => some (signed negative magnitude.units)

def compare? (a b : Number) : Option Ordering := do
  return compare (← a.place) (← b.place)

/-- Numerical equality: both zeros are equal and `nan` differs from itself. -/
def same (a b : Number) : Bool := a.compare? b == some .eq

def less (a b : Number) : Bool := a.compare? b == some .lt

def isNaN : Number → Bool
  | nan => true
  | _ => false

def isFinite : Number → Bool
  | finite .. => true
  | _ => false

def isWhole : Number → Bool
  | finite _ magnitude => magnitude.units % one == 0
  | _ => false

def neg : Number → Number
  | nan => nan
  | infinite negative => infinite !negative
  | finite negative magnitude => finite (!negative) magnitude

def add : Number → Number → Number
  | nan, _ | _, nan => nan
  | infinite s, infinite t => if s = t then infinite s else nan
  | infinite s, finite .. => infinite s
  | finite .., infinite t => infinite t
  | finite s m, finite t n =>
    let sum := signed s m.units + signed t n.units
    if sum = 0 then zero (s && t) else ofRatio (sum < 0) sum.natAbs 1

def sub (a b : Number) : Number := add a b.neg

def mul : Number → Number → Number
  | nan, _ | _, nan => nan
  | infinite s, infinite t => infinite (s != t)
  | infinite s, finite t n => if n.units = 0 then nan else infinite (s != t)
  | finite s m, infinite t => if m.units = 0 then nan else infinite (s != t)
  | finite s m, finite t n => ofRatio (s != t) (m.units * n.units) one

def div : Number → Number → Number
  | nan, _ | _, nan => nan
  | infinite _, infinite _ => nan
  | infinite s, finite t _ => infinite (s != t)
  | finite s _, infinite t => zero (s != t)
  | finite s m, finite t n =>
    if n.units = 0 then if m.units = 0 then nan else infinite (s != t)
    else ofRatio (s != t) (m.units * one) n.units

/-- The remainder of division toward zero; it has the sign of the dividend. -/
def rem : Number → Number → Number
  | nan, _ | _, nan | infinite _, _ => nan
  | finite s m, infinite _ => finite s m
  | finite s m, finite _ n => if n.units = 0 then nan else ofRatio s (m.units % n.units) 1

/-- Keeps a finite number's sign and replaces its absolute value by a whole number. -/
private def mapWhole (whole : Bool → Nat → Nat) : Number → Number
  | finite negative magnitude => ofRatio negative (whole negative magnitude.units * one) 1
  | other => other

def trunc : Number → Number := mapWhole fun _ units => units / one

def floor : Number → Number :=
  mapWhole fun negative units => if negative then (units + (one - 1)) / one else units / one

def ceil : Number → Number :=
  mapWhole fun negative units => if negative then units / one else (units + (one - 1)) / one

/-- Rounds to the nearest whole number; a half goes away from zero. -/
def round : Number → Number := mapWhole fun _ units => (2 * units + one) / (2 * one)

/-- The larger of two numbers; `nan` gives way to a number. -/
def max (a b : Number) : Number :=
  if a.isNaN then b else if b.isNaN then a else if a.less b then b else a

/-- The smaller of two numbers; `nan` gives way to a number. -/
def min (a b : Number) : Number :=
  if a.isNaN then b else if b.isNaN then a else if b.less a then b else a

/-- The whole part as an integer held within the given bounds; `nan` counts as zero. -/
def toIntWithin (low high : Int) : Number → Int
  | nan => 0
  | infinite negative => if negative then low else high
  | finite negative magnitude => Max.max low (Min.min high (signed negative (magnitude.units / one)))

def toInt64 : Number → Int := toIntWithin (Word.least 64) (Word.greatest 64)

def toNat64 (n : Number) : Nat := (n.toIntWithin 0 ((twoTo 64 : Int) - 1)).toNat

def ofDecimal (negative : Bool) (digits : Nat) (exponent : Int) : Number :=
  if digits = 0 then zero negative
  else if exponent > 400 then infinite negative
  else if exponent < -(digits.log2 : Int) - 400 then zero negative
  else if exponent ≥ 0 then ofRatio negative (digits * tenTo exponent.toNat * one) 1
  else ofRatio negative (digits * one) (tenTo (-exponent).toNat)

def sum (ns : List Number) : Number := ns.foldl add (zero true)

end Number
end Tabulate
