import Tabulate.Unicode.Class

/-! Texts as literals: in double quotes, with escapes for what cannot be seen. -/
namespace Tabulate.Text

/-- Characters without a shape of their own: controls, marks that join the one before, format
characters and private ones. A space has one. -/
private def isInvisible (c : Char) : Bool :=
  let n := c.toNat
  n < 0x20 || (0x7f ≤ n && n < 0xa0) || n = 0xad || (0x300 ≤ n && n < 0x370) ||
    (0x600 ≤ n && n < 0x606) || (0x200b ≤ n && n < 0x2010) || (0x202a ≤ n && n < 0x202f) ||
    (0x2060 ≤ n && n < 0x2070) || (0xe000 ≤ n && n < 0xf900) || (0xfe00 ≤ n && n < 0xfe10) ||
    n = 0xfeff || 0xe0000 ≤ n || (Unicode.isBlank c && c ≠ ' ')

private def literalChar (c : Char) : List Char :=
  match c with
  | '\x00' => ['\\', '0']
  | '\t' => ['\\', 't']
  | '\r' => ['\\', 'r']
  | '\n' => ['\\', 'n']
  | '"' => ['\\', '"']
  | '\\' => ['\\', '\\']
  | c =>
    if isInvisible c then '\\' :: 'u' :: '\x7b' :: (Nat.toDigits 16 c.toNat ++ ['\x7d']) else [c]

def literal (text : List Char) : String :=
  String.ofList ('"' :: (text.flatMap literalChar ++ ['"']))

end Tabulate.Text
