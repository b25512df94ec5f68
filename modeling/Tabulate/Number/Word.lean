/-! Powers of two and of ten, and the whole numbers that a word of so many bits holds. -/
namespace Tabulate

def twoTo (exponent : Nat) : Nat := Nat.pow 2 exponent

def tenTo (exponent : Nat) : Nat := Nat.pow 10 exponent

theorem twoTo_pos (n : Nat) : 0 < twoTo n := Nat.two_pow_pos n

theorem twoTo_add (m n : Nat) : twoTo (m + n) = twoTo m * twoTo n := Nat.pow_add 2 m n

theorem twoTo_le_twoTo {m n : Nat} (h : m ≤ n) : twoTo m ≤ twoTo n :=
  Nat.pow_le_pow_right (by decide) h

theorem twoTo_dvd_twoTo {m n : Nat} (h : m ≤ n) : twoTo m ∣ twoTo n := Nat.pow_dvd_pow 2 h

theorem log2_twoTo (n : Nat) : (twoTo n).log2 = n := Nat.log2_two_pow

theorem lt_twoTo_log2 (n : Nat) : n < twoTo (n.log2 + 1) := Nat.lt_log2_self

theorem twoTo_log2_le {n : Nat} (positive : n ≠ 0) : twoTo n.log2 ≤ n := Nat.log2_self_le positive

theorem le_log2_of_twoTo_le {n bits : Nat} (positive : n ≠ 0) (h : twoTo bits ≤ n) :
    bits ≤ n.log2 := (Nat.le_log2 positive).2 h

theorem log2_lt_of_lt_twoTo {n bits : Nat} (positive : n ≠ 0) (h : n < twoTo bits) :
    n.log2 < bits := (Nat.log2_lt positive).2 h

theorem tenTo_pos (n : Nat) : 0 < tenTo n := Nat.pow_pos (by decide)

/-- Tens are fives and twos. -/
theorem tenTo_eq_mul (n : Nat) : tenTo n = Nat.pow 5 n * twoTo n := Nat.mul_pow 5 2 n

theorem tenTo_add (m n : Nat) : tenTo (m + n) = tenTo m * tenTo n := Nat.pow_add 10 m n

theorem tenTo_le_tenTo {m n : Nat} (h : m ≤ n) : tenTo m ≤ tenTo n :=
  Nat.pow_le_pow_right (by decide) h

theorem twoTo_le_tenTo (n : Nat) : twoTo n ≤ tenTo n := Nat.pow_le_pow_left (by decide) n

namespace Word

def least (bits : Nat) : Int := -(twoTo (bits - 1) : Int)

def greatest (bits : Nat) : Int := (twoTo (bits - 1) : Int) - 1

def isSigned (bits : Nat) (n : Int) : Bool := least bits ≤ n && n ≤ greatest bits

def isUnsigned (bits : Nat) (n : Int) : Bool := 0 ≤ n && n < (twoTo bits : Int)

end Word
end Tabulate
