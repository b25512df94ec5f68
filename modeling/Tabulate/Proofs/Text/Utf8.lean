import Mathlib.Data.Char
import Mathlib.Tactic.SplitIfs
import Tabulate.Text.Utf8

/-! The bytes of a text: how many they are, which of them are ASCII, and that they are read back as the
characters of the text. -/
namespace Tabulate

private theorem foldl_utf8Size (text : List Char) (count : Nat) :
    text.foldl (fun count c => count + c.utf8Size) count = count + byteCount text := by
  induction text generalizing count with
  | nil => rfl
  | cons c text ih => rw [byteCount, List.foldl_cons, List.foldl_cons, ih, ih, Nat.zero_add, Nat.add_assoc]

theorem byteCount_cons (c : Char) (text : List Char) : byteCount (c :: text) = c.utf8Size + byteCount text := by
  rw [byteCount, List.foldl_cons, foldl_utf8Size, Nat.zero_add]

theorem byteCount_append (before after : List Char) :
    byteCount (before ++ after) = byteCount before + byteCount after := by
  rw [byteCount, List.foldl_append, foldl_utf8Size]
  rfl

theorem byteCount_pos {text : List Char} (nonempty : text ≠ []) : 0 < byteCount text := by
  obtain ⟨c, rest, rfl⟩ := List.exists_cons_of_ne_nil nonempty
  rw [byteCount_cons]
  exact Nat.add_pos_left c.utf8Size_pos _

namespace Utf8

def bytesOf (c : Char) : List Nat := (String.utf8EncodeChar c).map UInt8.toNat

private theorem loop_eq_append_drop (bytes : ByteArray) (i : Nat) (before : List UInt8) :
    ByteArray.toList.loop bytes i before = before.reverse ++ bytes.data.toList.drop i := by
  rw [ByteArray.toList.loop]
  split
  next h =>
    have hi : i < bytes.data.toList.length := by simpa using h
    rw [loop_eq_append_drop bytes (i + 1), List.drop_eq_getElem_cons hi]
    have hget : bytes.get! i = bytes.data.toList[i] := by
      rw [ByteArray.get!, getElem!_pos bytes.data i h, Array.getElem_toList]
    rw [hget, List.reverse_cons, List.append_assoc, List.singleton_append]
  next h =>
    have hi : bytes.data.toList.length ≤ i := by simpa using h
    rw [List.drop_eq_nil_of_le hi, List.append_nil]
termination_by bytes.size - i

theorem encode_eq_flatMap (text : String) : encode text = text.toList.flatMap bytesOf := by
  have hbytes : text.toUTF8.toList = text.toList.flatMap String.utf8EncodeChar := by
    rw [ByteArray.toList, loop_eq_append_drop, List.reverse_nil, List.nil_append, List.drop_zero]
    have htext : text.toUTF8 = text.toList.utf8Encode := by
      rw [String.toUTF8_eq_toByteArray, ← String.toByteArray_ofList, String.ofList_toList]
    rw [htext, List.utf8Encode, List.data_toByteArray]
  rw [encode, hbytes, List.map_flatMap]
  rfl

private theorem toNat_cases (c : Char) : c.toNat < 0xd800 ∨ 0xdfff < c.toNat ∧ c.toNat < 0x110000 :=
  c.valid

section Widths
variable {a b c e : Nat} (index : Nat) (rest : List Nat)
attribute [local simp] step isContinuation low

private theorem step_one (ha : a < 0x80) : step index a rest = .ok (Char.ofNat a, rest) := by
  have hw : width a = 1 := by simp [width, ha]
  simp [hw]

private theorem step_two (ha : 0xc2 ≤ a ∧ a ≤ 0xdf) (hb : 0x80 ≤ b ∧ b ≤ 0xbf) :
    step index a (b :: rest) = .ok (Char.ofNat (a % 32 * 64 + b % 64), rest) := by
  have hw : width a = 2 := by
    have notOne : ¬ a < 0x80 := by omega
    simp [width, ha, notOne]
  simp [hw, hb]

private theorem step_three (ha : 0xe0 ≤ a ∧ a ≤ 0xef) (hb : mayFollow a b = true)
    (hc : 0x80 ≤ c ∧ c ≤ 0xbf) :
    step index a (b :: c :: rest) =
      .ok (Char.ofNat ((a % 16 * 64 + b % 64) * 64 + c % 64), rest) := by
  have hw : width a = 3 := by
    have notOne : ¬ a < 0x80 := by omega
    have notTwo : ¬ (0xc2 ≤ a ∧ a ≤ 0xdf) := by omega
    simp [width, ha, notOne, notTwo]
  simp [hw, hb, hc]

private theorem step_four (ha : 0xf0 ≤ a ∧ a ≤ 0xf4) (hb : mayFollow a b = true)
    (hc : 0x80 ≤ c ∧ c ≤ 0xbf) (he : 0x80 ≤ e ∧ e ≤ 0xbf) :
    step index a (b :: c :: e :: rest) =
      .ok (Char.ofNat (((a % 8 * 64 + b % 64) * 64 + c % 64) * 64 + e % 64), rest) := by
  have hw : width a = 4 := by
    have notOne : ¬ a < 0x80 := by omega
    have notTwo : ¬ (0xc2 ≤ a ∧ a ≤ 0xdf) := by omega
    have notThree : ¬ (0xe0 ≤ a ∧ a ≤ 0xef) := by omega
    simp [width, ha, notOne, notTwo, notThree]
  simp [hw, hb, hc, he]

end Widths

private theorem mayFollow_three {v : Nat} (long : 2047 < v) (short : v ≤ 65535)
    (scalar : v < 0xd800 ∨ 0xdfff < v) : mayFollow (v / 4096 % 16 + 224) (v / 64 % 64 + 128) = true := by
  unfold mayFollow isContinuation
  split_ifs <;> simp only [Bool.and_eq_true, decide_eq_true_eq] <;> omega

private theorem mayFollow_four {v : Nat} (long : 65535 < v) (short : v < 0x110000) :
    mayFollow (v / 262144 % 8 + 240) (v / 4096 % 64 + 128) = true := by
  unfold mayFollow isContinuation
  split_ifs <;> simp only [Bool.and_eq_true, decide_eq_true_eq] <;> omega

private theorem map_toNat_ofNat {bytes : List Nat} (h : ∀ b ∈ bytes, b < 256) :
    (bytes.map UInt8.ofNat).map UInt8.toNat = bytes := by
  rw [List.map_map]
  refine (List.map_congr_left fun b hb => ?_).trans (List.map_id bytes)
  simpa using h b hb

private theorem bytesOf_eq (c : Char) : bytesOf c =
    if c.toNat ≤ 127 then [c.toNat]
    else if c.toNat ≤ 2047 then [c.toNat / 64 % 32 + 192, c.toNat % 64 + 128]
    else if c.toNat ≤ 65535 then
      [c.toNat / 4096 % 16 + 224, c.toNat / 64 % 64 + 128, c.toNat % 64 + 128]
    else [c.toNat / 262144 % 8 + 240, c.toNat / 4096 % 64 + 128, c.toNat / 64 % 64 + 128,
      c.toNat % 64 + 128] := by
  have hbytes : bytesOf c = (String.utf8EncodeChar c).map UInt8.toNat := rfl
  rw [String.utf8EncodeChar] at hbytes
  change bytesOf c = List.map UInt8.toNat (if c.toNat ≤ 127 then [c.toNat].map UInt8.ofNat else
    if c.toNat ≤ 2047 then [c.toNat / 64 % 32 + 192, c.toNat % 64 + 128].map UInt8.ofNat else
      if c.toNat ≤ 65535 then
        [c.toNat / 4096 % 16 + 224, c.toNat / 64 % 64 + 128, c.toNat % 64 + 128].map UInt8.ofNat
      else [c.toNat / 262144 % 8 + 240, c.toNat / 4096 % 64 + 128, c.toNat / 64 % 64 + 128,
        c.toNat % 64 + 128].map UInt8.ofNat) at hbytes
  rw [hbytes]
  generalize c.toNat = v
  split_ifs <;> exact map_toNat_ofNat (by simp; omega)

theorem length_bytesOf (c : Char) : (bytesOf c).length = c.utf8Size := by
  rw [bytesOf, List.length_map, String.length_utf8EncodeChar]

private theorem length_flatMap_bytesOf (text : List Char) : (text.flatMap bytesOf).length = byteCount text := by
  induction text with
  | nil => rfl
  | cons c text ih => rw [List.flatMap_cons, List.length_append, length_bytesOf, ih, byteCount_cons]

/-- An ASCII character is its only byte, and no byte of another one is ASCII. -/
theorem bytesOf_cases (c : Char) :
    c.toNat < 128 ∧ bytesOf c = [c.toNat] ∨ 128 ≤ c.toNat ∧ ∀ b ∈ bytesOf c, 128 ≤ b := by
  rw [bytesOf_eq]
  split_ifs with one two three
  · exact .inl ⟨by omega, rfl⟩
  · exact .inr ⟨by omega, by simp⟩
  · exact .inr ⟨by omega, by simp⟩
  · exact .inr ⟨by omega, by simp⟩

/-- The first byte of a character tells how many follow. -/
theorem step_bytesOf (c : Char) (index : Nat) (rest : List Nat) :
    ∃ first more, bytesOf c = first :: more ∧ step index first (more ++ rest) = .ok (c, rest) := by
  have hc : Char.ofNat c.toNat = c := Char.ofNat_toNat c
  have hcases := toNat_cases c
  have hbytes := bytesOf_eq c
  generalize c.toNat = v at hc hcases hbytes
  split_ifs at hbytes with one two three
  · exact ⟨_, _, hbytes, by rw [List.nil_append, step_one index rest (by omega), hc]⟩
  · refine ⟨_, _, hbytes, (step_two index rest (by omega) (by omega)).trans ?_⟩
    rw [← hc]
    congr 3
    omega
  · refine ⟨_, _, hbytes, (step_three index rest (by omega) (mayFollow_three (by omega) three (by omega))
      (by omega)).trans ?_⟩
    rw [← hc]
    congr 3
    omega
  · refine ⟨_, _, hbytes, (step_four index rest (by omega) (mayFollow_four (by omega) (by omega))
      (by omega) (by omega)).trans ?_⟩
    rw [← hc]
    congr 3
    omega

private theorem decodeFrom_flatMap_bytesOf (text : List Char) {fuel : Nat} (enough : text.length ≤ fuel)
    (index : Nat) : decodeFrom fuel index (text.flatMap bytesOf) = .ok text := by
  induction text generalizing fuel index with
  | nil => cases fuel <;> rfl
  | cons c text ih =>
    obtain ⟨fuel, rfl⟩ := Nat.exists_eq_succ_of_ne_zero (Nat.ne_of_gt (Nat.zero_lt_of_lt enough))
    obtain ⟨first, more, hbytes, hstep⟩ := step_bytesOf c index (text.flatMap bytesOf)
    rw [List.flatMap_cons, hbytes, List.cons_append, decodeFrom, hstep]
    simp [bind, Except.bind, ih (Nat.le_of_succ_le_succ enough), pure, Except.pure]

private theorem length_le_flatMap_bytesOf (text : List Char) :
    text.length ≤ (text.flatMap bytesOf).length := by
  induction text with
  | nil => exact Nat.zero_le _
  | cons c text ih =>
    obtain ⟨first, more, hbytes, -⟩ := step_bytesOf c 0 []
    simp only [List.flatMap_cons, List.length_append, hbytes, List.length_cons]
    omega

theorem length_encode (text : String) : (encode text).length = byteCount text.toList := by
  rw [encode_eq_flatMap]
  exact length_flatMap_bytesOf text.toList

theorem decode_encode (text : String) : decode (encode text) = .ok text.toList := by
  rw [decode, encode_eq_flatMap]
  exact decodeFrom_flatMap_bytesOf _ (length_le_flatMap_bytesOf _) 0

end Utf8

/-- A text without a byte order mark at its start is read back from its bytes. -/
theorem decodeText_encode {text : String} (noMark : withoutMark text.toList = text.toList) :
    decodeText (Utf8.encode text) = .ok text := by
  simp [decodeText, Utf8.decode_encode, noMark, bind, Except.bind, pure, Except.pure]

end Tabulate
