import Tabulate.Number.Basic

/-! Reading decimal text as a number, by one exact rounding. -/
namespace Tabulate

def digitsValue (digits : List Char) : Nat :=
  digits.foldl (fun value c => value * 10 + (c.toNat - '0'.toNat)) 0

def takeDigits (text : List Char) : List Char × List Char := text.span Char.isDigit

namespace Number

def readExponent : List Char → Option Int
  | '-' :: rest => (unsigned rest).map (- ·)
  | '+' :: rest => unsigned rest
  | rest => unsigned rest
where
  unsigned (text : List Char) : Option Int :=
    match takeDigits text with
    | ([], _) | (_, _ :: _) => none
    | (digits, []) => some (digitsValue digits)

/-- Digits with an optional point among, before or after them, and an optional power of ten. -/
def readDecimal (negative : Bool) (text : List Char) : Option Number :=
  let (whole, rest) := takeDigits text
  let (fraction, rest) := match rest with
    | '.' :: rest => takeDigits rest
    | rest => ([], rest)
  if whole.isEmpty && fraction.isEmpty then none
  else
    let build (exponent : Int) :=
      ofDecimal negative (digitsValue (whole ++ fraction)) (exponent - fraction.length)
    match rest with
    | [] => some (build 0)
    | c :: rest => if c = 'e' ∨ c = 'E' then (readExponent rest).map build else none

def readUnsigned (negative : Bool) (text : List Char) : Option Number :=
  let word := text.map Char.toLower
  if word = "inf".toList ∨ word = "infinity".toList then some (infinite negative)
  else if word = "nan".toList then some nan
  else readDecimal negative text

/-- Reads a whole text as a number: an optional sign, then a decimal or the name of an
infinity or of `nan` in any case. -/
def read? : List Char → Option Number
  | '-' :: rest => readUnsigned true rest
  | '+' :: rest => readUnsigned false rest
  | text => readUnsigned false text

end Number
end Tabulate
