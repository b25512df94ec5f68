/-! Texts as UTF-8 bytes: sizes, decoding, and what makes bytes invalid. -/
namespace Tabulate

def byteCount (text : List Char) : Nat := text.foldl (fun count c => count + c.utf8Size) 0

/-- Bytes that are not UTF-8: `length` bytes at `index` start no character, or the bytes end
within a character. -/
inductive EncodingError
  | invalid (length index : Nat)
  | incomplete (index : Nat)
deriving DecidableEq

def EncodingError.message : EncodingError → String
  | invalid length index => s!"invalid utf-8 sequence of {length} bytes from index {index}"
  | incomplete index => s!"incomplete utf-8 byte sequence from index {index}"

namespace Utf8

def isContinuation (b : Nat) : Bool := 0x80 ≤ b && b ≤ 0xbf

/-- The bytes that may follow the first byte of a sequence of three or four. -/
def mayFollow (first second : Nat) : Bool :=
  if first = 0xe0 then 0xa0 ≤ second && second ≤ 0xbf
  else if first = 0xed then 0x80 ≤ second && second ≤ 0x9f
  else if first = 0xf0 then 0x90 ≤ second && second ≤ 0xbf
  else if first = 0xf4 then 0x80 ≤ second && second ≤ 0x8f
  else isContinuation second

/-- The number of bytes of a character that starts with a byte; zero if none does. -/
def width (first : Nat) : Nat :=
  if first < 0x80 then 1
  else if 0xc2 ≤ first && first ≤ 0xdf then 2
  else if 0xe0 ≤ first && first ≤ 0xef then 3
  else if 0xf0 ≤ first && first ≤ 0xf4 then 4
  else 0

def low (b : Nat) : Nat := b % 64

def step (index first : Nat) (rest : List Nat) : Except EncodingError (Char × List Nat) :=
  match width first, rest with
  | 1, rest => .ok (Char.ofNat first, rest)
  | 2, [] | 3, [] | 4, [] => .error (.incomplete index)
  | 2, b :: rest =>
    if isContinuation b then .ok (Char.ofNat (first % 32 * 64 + low b), rest)
    else .error (.invalid 1 index)
  | 3, b :: rest =>
    if !mayFollow first b then .error (.invalid 1 index)
    else match rest with
      | [] => .error (.incomplete index)
      | c :: rest =>
        if isContinuation c then .ok (Char.ofNat ((first % 16 * 64 + low b) * 64 + low c), rest)
        else .error (.invalid 2 index)
  | 4, b :: rest =>
    if !mayFollow first b then .error (.invalid 1 index)
    else match rest with
      | [] => .error (.incomplete index)
      | c :: rest =>
        if !isContinuation c then .error (.invalid 2 index)
        else match rest with
          | [] => .error (.incomplete index)
          | d :: rest =>
            if isContinuation d then
              .ok (Char.ofNat (((first % 8 * 64 + low b) * 64 + low c) * 64 + low d), rest)
            else .error (.invalid 3 index)
  | _, _ => .error (.invalid 1 index)

def decodeFrom : Nat → Nat → List Nat → Except EncodingError (List Char)
  | 0, _, _ | _, _, [] => .ok []
  | fuel + 1, index, first :: rest => do
    let (c, rest) ← step index first rest
    return c :: (← decodeFrom fuel (index + c.utf8Size) rest)

def decode (bytes : List Nat) : Except EncodingError (List Char) :=
  decodeFrom bytes.length 0 bytes

def encode (text : String) : List Nat := text.toUTF8.toList.map UInt8.toNat

def lead (c : Char) : Char := Char.ofNat ((encode (String.singleton c)).head?.getD 0)

end Utf8

def withoutMark : List Char → List Char
  | c :: rest => if c.toNat = 0xfeff then rest else c :: rest
  | [] => []

def decodeText (bytes : List Nat) : Except EncodingError String := do
  return String.ofList (withoutMark (← Utf8.decode bytes))

end Tabulate
