import Tabulate.Number.Read
import Tabulate.Unicode.Case

/-! Texts that stand for finite numbers, with white space around and commas between digits. -/
namespace Tabulate.Number

def finite? (text : List Char) : Option Number := (read? text).filter isFinite

/-- The finite number that a text stands for: as it is, or else without its commas. -/
def ofText? (text : String) : Option Number :=
  let text := Unicode.trim text.toList
  match finite? text with
  | some n => some n
  | none => if text.contains ',' then finite? (text.filter (· ≠ ',')) else none

end Tabulate.Number
