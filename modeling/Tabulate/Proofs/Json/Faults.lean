import Mathlib.Data.Char
import Mathlib.Data.List.TakeDrop
import Mathlib.Data.List.TakeWhile
import Mathlib.Tactic.SplitIfs
import Tabulate.Json.Reader
import Tabulate.Proofs.Text.Utf8

/-! The faults of a JSON text show within it: a cursor counts the bytes that it has passed over, and a fault
lies no further than the end of the text. -/
namespace Tabulate.Json

/-- The bytes that a cursor has passed over, and those that are left. -/
def Cursor.size (c : Cursor) : Nat := c.index + byteCount c.rest

/-- A reading of a text of so many bytes keeps their count, or its fault lies within them. -/
def StaysWithin {α : Type} (size : Nat) (cursorOf : α → Cursor) (x : Except ReadError α) : Prop :=
  match x with
  | .ok found => (cursorOf found).size = size
  | .error e => e.bytesRead ≤ size

namespace StaysWithin
variable {α β : Type} {size : Nat} {cursorOf : α → Cursor} {cursorOf' : β → Cursor} {x : Except ReadError α}

theorem bind (h : StaysWithin size cursorOf x) {f : α → Except ReadError β}
    (hf : ∀ found, (cursorOf found).size = size → StaysWithin size cursorOf' (f found)) :
    StaysWithin size cursorOf' (x >>= f) := by
  cases x with
  | ok found => exact hf found h
  | error e => exact h

end StaysWithin

section Cursors
variable {α : Type} {cursorOf : α → Cursor} {c : Cursor} {x : Char} {rest : List Char} {fault : Fault}

private theorem Cursor.size_of_rest (h : c.rest = x :: rest) : c.size = c.index + (x.utf8Size + byteCount rest) := by
  rw [Cursor.size, h, byteCount_cons]

/-- Passing over a character moves its bytes. -/
theorem Cursor.size_pass (h : c.rest = x :: rest) : Cursor.size ⟨rest, c.index + x.utf8Size⟩ = c.size := by
  rw [size_of_rest h, Cursor.size, Nat.add_assoc]

private theorem Cursor.size_pass_one (h : c.rest = x :: rest) (narrow : x.utf8Size = 1) :
    Cursor.size ⟨rest, c.index + 1⟩ = c.size := by
  rw [← narrow, size_pass h]

private theorem Cursor.next_le_size (h : c.rest = x :: rest) : c.index + 1 ≤ c.size := by
  have hpos := x.utf8Size_pos
  rw [size_of_rest h]
  omega

private theorem staysWithin_fail (c : Cursor) (fault : Fault) :
    StaysWithin c.size cursorOf (c.fail fault) := Nat.le_add_right _ _

private theorem staysWithin_failAtNext (c : Cursor) (fault : Fault) :
    StaysWithin c.size cursorOf (c.failAtNext fault) := by
  have hle : (if c.rest.isEmpty then c.index else c.index + 1) ≤ c.size := by
    split
    next => exact Nat.le_add_right _ _
    next hsome =>
      obtain ⟨x, rest, h⟩ := List.exists_cons_of_ne_nil (by simpa using hsome : c.rest ≠ [])
      exact Cursor.next_le_size h
  exact hle

/-- White space is ASCII. -/
theorem size_skipFrom (text : List Char) (index : Nat) :
    (Cursor.skipFrom text index).size = index + byteCount text := by
  induction text generalizing index with
  | nil => rfl
  | cons x text ih =>
    rw [Cursor.skipFrom]
    split
    next h =>
      have hnarrow : x.utf8Size = 1 := by rcases h with rfl | rfl | rfl | rfl <;> rfl
      rw [ih, byteCount_cons, hnarrow, Nat.add_assoc]
    next => rfl

private theorem size_skipSpace (c : Cursor) : c.skipSpace.size = c.size := size_skipFrom c.rest c.index

end Cursors

section Narrow
variable {c : Char}

private theorem utf8Size_of_lt (h : c.toNat < 128) : c.utf8Size = 1 := by
  have hval : c.val.toNat ≤ 127 := Nat.le_of_lt_succ h
  rw [Char.utf8Size, if_pos (UInt32.le_iff_toNat_le.mpr hval)]

private theorem utf8Size_of_isDigit (h : c.isDigit = true) : c.utf8Size = 1 := by
  simp only [Char.isDigit, Bool.and_eq_true, decide_eq_true_eq, ge_iff_le, UInt32.le_iff_toNat_le] at h
  exact utf8Size_of_lt (Nat.lt_of_le_of_lt h.2 (by decide))

private theorem utf8Size_of_hexValue? {value : Nat} (h : hexValue? c = some value) : c.utf8Size = 1 := by
  have hle {last : Char} (hlast : c ≤ last) : c.toNat ≤ last.toNat := hlast
  unfold hexValue? at h
  split_ifs at h with decimal small capital
  · exact utf8Size_of_lt (Nat.lt_of_le_of_lt (hle decimal.2) (by decide))
  · exact utf8Size_of_lt (Nat.lt_of_le_of_lt (hle small.2) (by decide))
  · exact utf8Size_of_lt (Nat.lt_of_le_of_lt (hle capital.2) (by decide))

private theorem byteCount_of_narrow {text : List Char} (h : ∀ c ∈ text, c.utf8Size = 1) :
    byteCount text = text.length := by
  induction text with
  | nil => rfl
  | cons c text ih =>
    obtain ⟨hc, hmore⟩ := List.forall_mem_cons.mp h
    rw [byteCount_cons, hc, ih hmore, List.length_cons, Nat.add_comm]

private theorem byteCount_hexFour? {text rest : List Char} {value : Nat} (h : hexFour? text = some (value, rest)) :
    byteCount text = 4 + byteCount rest := by
  unfold hexFour? at h
  split at h
  next a b c d more =>
    simp only [bind, Option.bind_eq_some_iff, pure, Option.some.injEq, Prod.mk.injEq] at h
    obtain ⟨_, ha, _, hb, _, hc, _, hd, -, rfl⟩ := h
    simp only [byteCount_cons, utf8Size_of_hexValue? ha, utf8Size_of_hexValue? hb, utf8Size_of_hexValue? hc,
      utf8Size_of_hexValue? hd]
    omega
  next => contradiction

private theorem byteCount_takeDigits (text : List Char) :
    byteCount text = (takeDigits text).1.length + byteCount (takeDigits text).2 := by
  have hnarrow : ∀ c ∈ text.takeWhile Char.isDigit, c.utf8Size = 1 :=
    fun c hc => utf8Size_of_isDigit (List.mem_takeWhile_imp hc)
  rw [takeDigits, List.span_eq_takeWhile_dropWhile, ← byteCount_of_narrow hnarrow, ← byteCount_append,
    List.takeWhile_append_dropWhile]

private theorem byteCount_takeBounded (bound value : Nat) (text : List Char) :
    let (_, count, full, rest) := takeBounded bound value text
    byteCount text = count + byteCount rest ∧ (full = true → rest ≠ []) := by
  induction text generalizing value with
  | nil => exact ⟨rfl, nofun⟩
  | cons c text ih =>
    have hmore := ih (value * 10 + (c.toNat - '0'.toNat))
    have hstop : byteCount (c :: text) = 0 + byteCount (c :: text) := (Nat.zero_add _).symm
    by_cases digit : c.isDigit = true
    · rw [takeBounded, if_pos digit]
      dsimp only
      split
      next => exact ⟨hstop, fun _ => List.cons_ne_nil _ _⟩
      next =>
        refine ⟨?_, hmore.2⟩
        dsimp only
        rw [byteCount_cons, utf8Size_of_isDigit digit, hmore.1]
        omega
    · rw [takeBounded, if_neg digit]
      exact ⟨hstop, nofun⟩

end Narrow

section Words

private theorem readWord_staysWithin {word : List Char} (narrow : word.all (·.utf8Size == 1) = true) (c : Cursor) :
    StaysWithin c.size id (readWord word c) := by
  induction word generalizing c with
  | nil => exact rfl
  | cons expected word ih =>
    rw [List.all_cons, Bool.and_eq_true, beq_iff_eq] at narrow
    rw [readWord]
    split
    next => exact staysWithin_fail c _
    next x rest hrest =>
      split
      next heq =>
        rw [← Cursor.size_pass_one hrest (heq ▸ narrow.1)]
        exact ih narrow.2 _
      next => exact Cursor.next_le_size hrest

private theorem readHex_staysWithin (c : Cursor) : StaysWithin c.size Prod.snd (readHex c) := by
  unfold readHex
  split
  next value rest hread =>
    have hcount := byteCount_hexFour? hread
    have hsize : Cursor.size ⟨rest, c.index + 4⟩ = c.size := by
      rw [Cursor.size, Cursor.size, hcount, Nat.add_assoc]
    exact hsize
  next =>
    dsimp only
    split
    next => exact Nat.le_refl c.size
    next hleft => exact Nat.add_le_add_left (Nat.not_lt.mp hleft) c.index

private theorem expectPair_staysWithin {expected : Char} (narrow : expected.utf8Size = 1) (c : Cursor) :
    StaysWithin c.size id (expectPair expected c) := by
  unfold expectPair
  split
  next => exact staysWithin_fail c _
  next x rest hrest =>
    split
    next heq => exact Cursor.size_pass_one hrest (heq ▸ narrow)
    next => exact Cursor.next_le_size hrest

private theorem readUnicode_staysWithin (c : Cursor) : StaysWithin c.size Prod.snd (readUnicode c) := by
  refine (readHex_staysWithin c).bind ?_
  rintro ⟨lead, next⟩ (hnext : next.size = c.size)
  rw [← hnext]
  dsimp only
  split
  · exact staysWithin_fail next _
  split
  · exact rfl
  refine (expectPair_staysWithin rfl next).bind fun behind (hbehind : behind.size = next.size) => ?_
  rw [← hbehind]
  refine (expectPair_staysWithin rfl behind).bind fun start (hstart : start.size = behind.size) => ?_
  rw [← hstart]
  refine (readHex_staysWithin start).bind ?_
  rintro ⟨trail, last⟩ (hlast : last.size = start.size)
  rw [← hlast]
  dsimp only
  split
  · exact staysWithin_fail last _
  · exact rfl

private theorem readEscape_staysWithin (c : Cursor) : StaysWithin c.size Prod.snd (readEscape c) := by
  unfold readEscape
  split
  next => exact staysWithin_fail c _
  case h_10 rest hrest =>
    rw [← Cursor.size_pass_one hrest rfl]
    exact readUnicode_staysWithin _
  case h_11 hrest => exact Cursor.next_le_size hrest
  all_goals next hrest => exact Cursor.size_pass_one hrest rfl

private theorem readChars_staysWithin (fuel : Nat) (c : Cursor) : StaysWithin c.size Prod.snd (readChars fuel c) := by
  induction fuel generalizing c with
  | zero => exact staysWithin_fail c _
  | succ fuel ih =>
    unfold readChars
    split
    next => exact staysWithin_fail c _
    next hrest => exact Cursor.size_pass_one hrest rfl
    next rest hrest =>
      rw [← Cursor.size_pass_one hrest rfl]
      refine (readEscape_staysWithin _).bind ?_
      rintro ⟨x, next⟩ (hnext : next.size = _)
      rw [← hnext]
      refine (ih next).bind ?_
      rintro ⟨more, last⟩ (hlast : last.size = next.size)
      exact hlast
    next x rest _ _ hrest =>
      split
      next => exact Cursor.next_le_size hrest
      next =>
        rw [← Cursor.size_pass hrest]
        refine (ih _).bind ?_
        rintro ⟨more, last⟩ (hlast : last.size = _)
        exact hlast

private theorem readString_staysWithin (c : Cursor) : StaysWithin c.size Prod.snd (readString c) := by
  refine (readChars_staysWithin _ c).bind ?_
  rintro ⟨chars, next⟩ (hnext : next.size = c.size)
  exact hnext

end Words

section Numbers

private theorem size_takeDigits (text : List Char) (index : Nat) :
    Cursor.size ⟨(takeDigits text).2, index + (takeDigits text).1.length⟩ = index + byteCount text := by
  rw [byteCount_takeDigits text, Cursor.size, Nat.add_assoc]

private theorem size_takeBounded (bound value : Nat) (c : Cursor) :
    let (_, count, full, rest) := takeBounded bound value c.rest
    Cursor.size ⟨rest, c.index + count⟩ = c.size ∧ (full = true → c.index + count + 1 ≤ c.size) := by
  obtain ⟨hcount, hfull⟩ := byteCount_takeBounded bound value c.rest
  have hsize : Cursor.size ⟨(takeBounded bound value c.rest).2.2.2,
      c.index + (takeBounded bound value c.rest).2.1⟩ = c.size := by
    rw [Cursor.size, Cursor.size, hcount, Nat.add_assoc]
  refine ⟨hsize, fun full => ?_⟩
  obtain ⟨x, rest, hrest⟩ := List.exists_cons_of_ne_nil (hfull full)
  have hnext := Cursor.next_le_size (c := ⟨_, c.index + (takeBounded bound value c.rest).2.1⟩) hrest
  rwa [hsize] at hnext

variable (negative : Bool) (significand : Nat)

private theorem finish_staysWithin (exponent : Int) (c : Cursor) :
    StaysWithin c.size Prod.snd (finish negative significand exponent c) := by
  unfold finish
  split
  next => exact rfl
  next => exact staysWithin_fail c _

private theorem size_takeSign (c : Cursor) : (takeSign c).2.size = c.size := by
  unfold takeSign
  split
  next hrest => exact Cursor.size_pass_one hrest rfl
  next hrest => exact Cursor.size_pass_one hrest rfl
  next => rfl

private theorem readExponent_staysWithin (start : Int) (c : Cursor) :
    StaysWithin c.size Prod.snd (readExponent negative significand start c) := by
  unfold readExponent
  rw [← size_takeSign c]
  generalize takeSign c = signed
  obtain ⟨below, next⟩ := signed
  dsimp only
  split
  next => exact staysWithin_fail next _
  next first _ hrest =>
    split
    · exact Cursor.next_le_size hrest
    have hbytes := size_takeBounded maxExponent 0 next
    generalize takeBounded maxExponent 0 next.rest = taken at hbytes ⊢
    obtain ⟨value, count, full, rest⟩ := taken
    obtain ⟨hsize, hfull⟩ := hbytes
    dsimp only at hsize ⊢
    split
    next isFull =>
      split
      · exact hfull isFull
      · exact (size_takeDigits rest _).trans hsize
    next =>
      rw [← hsize]
      exact finish_staysWithin _ _ _ _

private theorem readTail_staysWithin (exponent : Int) (c : Cursor) :
    StaysWithin c.size Prod.snd (readTail negative significand exponent c) := by
  unfold readTail
  split
  case h_3 => exact finish_staysWithin _ _ _ c
  all_goals
    next rest hrest =>
      rw [← Cursor.size_pass_one hrest rfl]
      exact readExponent_staysWithin _ _ _ _

private theorem readFraction_staysWithin (exponent : Int) (c : Cursor) :
    StaysWithin c.size Prod.snd (readFraction negative significand exponent c) := by
  unfold readFraction
  have hbytes := size_takeBounded maxSignificand significand c
  generalize takeBounded maxSignificand significand c.rest = taken at hbytes ⊢
  obtain ⟨value, count, full, rest⟩ := taken
  obtain ⟨hsize, hfull⟩ := hbytes
  dsimp only at hsize ⊢
  split
  · rw [← hsize, Cursor.size, ← size_takeDigits rest]
    exact readTail_staysWithin _ _ _ _
  split
  · exact staysWithin_failAtNext c _
  · rw [← hsize]
    exact readTail_staysWithin _ _ _ _

private theorem size_takeWhole {first : Char} {rest : List Char} (c : Cursor) (hrest : c.rest = first :: rest) :
    let (_, count, _, left) :=
      if first = '0' then (0, 1, false, rest) else takeBounded maxSignificand 0 c.rest
    Cursor.size ⟨left, c.index + count⟩ = c.size := by
  by_cases zero : first = '0'
  · rw [if_pos zero]
    exact Cursor.size_pass_one hrest (zero ▸ rfl)
  · rw [if_neg zero]
    exact (size_takeBounded maxSignificand 0 c).1

private theorem readNumber_staysWithin (c : Cursor) : StaysWithin c.size Prod.snd (readNumber negative c) := by
  unfold readNumber
  split
  next => exact staysWithin_fail c _
  next first rest hrest =>
    split
    · exact Cursor.next_le_size hrest
    split
    next hzero =>
      obtain ⟨rfl, hdigit⟩ := hzero
      obtain ⟨second, more, rfl⟩ := List.exists_cons_of_ne_nil (l := rest) fun hnil => by simp [hnil] at hdigit
      rw [← Cursor.size_pass_one hrest rfl]
      exact Cursor.next_le_size (c := ⟨second :: more, c.index + 1⟩) rfl
    have hwhole := size_takeWhole c hrest
    generalize (if first = '0' then _ else _) = taken at hwhole ⊢
    obtain ⟨value, count, full, left⟩ := taken
    dsimp only at hwhole ⊢
    have hdigits : Cursor.size ⟨(if full then takeDigits left else ([], left)).2,
        c.index + count + (if full then takeDigits left else ([], left)).1.length⟩ = c.size := by
      cases full
      · exact hwhole
      · exact (size_takeDigits left _).trans hwhole
    generalize (if full then takeDigits left else ([], left)) = digits at hdigits ⊢
    obtain ⟨digits, after⟩ := digits
    dsimp only at hdigits ⊢
    rw [← hdigits]
    split
    case h_1 after =>
      rw [← Cursor.size_pass_one (c := ⟨'.' :: after, _⟩) rfl rfl]
      exact readFraction_staysWithin _ _ _ _
    case h_2 after =>
      rw [← Cursor.size_pass_one (c := ⟨'e' :: after, _⟩) rfl rfl]
      exact readExponent_staysWithin _ _ _ _
    case h_3 after =>
      rw [← Cursor.size_pass_one (c := ⟨'E' :: after, _⟩) rfl rfl]
      exact readExponent_staysWithin _ _ _ _
    split
    · exact finish_staysWithin _ _ _ _
    · exact rfl

end Numbers

section Documents

structure DocumentsStayWithin (fuel : Nat) : Prop where
  value (depth : Nat) (c : Cursor) : StaysWithin c.size Prod.snd (readValue fuel depth c)
  items (depth : Nat) (c : Cursor) : StaysWithin c.size Prod.snd (readItems fuel depth c)
  moreItems (depth : Nat) (c : Cursor) : StaysWithin c.size Prod.snd (readMoreItems fuel depth c)
  pairs (depth : Nat) (c : Cursor) : StaysWithin c.size Prod.snd (readPairs fuel depth c)
  pair (depth : Nat) (c : Cursor) : StaysWithin c.size Prod.snd (readPair fuel depth c)
  morePairs (depth : Nat) (c : Cursor) : StaysWithin c.size Prod.snd (readMorePairs fuel depth c)

variable {fuel : Nat}

private theorem readValue_succ (h : DocumentsStayWithin fuel) (depth : Nat) (c : Cursor) :
    StaysWithin c.size Prod.snd (readValue (fuel + 1) depth c) := by
  rw [readValue, ← size_skipSpace c]
  generalize c.skipSpace = c
  dsimp only
  split
  case h_1 => exact staysWithin_failAtNext c _
  case h_5 rest hrest =>
    rw [← Cursor.size_pass_one hrest rfl]
    refine (readString_staysWithin _).bind ?_
    rintro ⟨s, next⟩ (hnext : next.size = _)
    exact hnext
  case h_6 rest hrest =>
    rw [← Cursor.size_pass_one hrest rfl]
    exact readNumber_staysWithin _ _
  case h_7 rest hrest =>
    cases depth with
    | zero => exact staysWithin_failAtNext c _
    | succ depth =>
      rw [← Cursor.size_pass_one hrest rfl]
      refine (h.items depth _).bind ?_
      rintro ⟨items, next⟩ (hnext : next.size = _)
      exact hnext
  case h_8 rest hrest =>
    cases depth with
    | zero => exact staysWithin_failAtNext c _
    | succ depth =>
      rw [← Cursor.size_pass_one hrest rfl]
      refine (h.pairs depth _).bind ?_
      rintro ⟨pairs, next⟩ (hnext : next.size = _)
      exact hnext
  case h_9 =>
    split
    · exact readNumber_staysWithin _ c
    · exact staysWithin_failAtNext c _
  all_goals
    next rest hrest =>
      rw [← Cursor.size_pass_one hrest rfl]
      exact (readWord_staysWithin (by decide) _).bind fun next hnext => hnext

private theorem readItem_staysWithin (h : DocumentsStayWithin fuel) (depth : Nat) (c : Cursor) :
    StaysWithin c.size Prod.snd (do
      let (item, c) ← readValue fuel depth c
      let (more, c) ← readMoreItems fuel depth c
      return (item :: more, c)) := by
  refine (h.value depth c).bind ?_
  rintro ⟨item, next⟩ (hnext : next.size = c.size)
  rw [← hnext]
  refine (h.moreItems depth next).bind ?_
  rintro ⟨more, last⟩ (hlast : last.size = next.size)
  exact hlast

private theorem readItems_succ (h : DocumentsStayWithin fuel) (depth : Nat) (c : Cursor) :
    StaysWithin c.size Prod.snd (readItems (fuel + 1) depth c) := by
  rw [readItems, ← size_skipSpace c]
  generalize c.skipSpace = c
  dsimp only
  split
  next => exact staysWithin_failAtNext c _
  next rest hrest => exact Cursor.size_pass_one hrest rfl
  next => exact readItem_staysWithin h depth c

private theorem readMoreItems_succ (h : DocumentsStayWithin fuel) (depth : Nat) (c : Cursor) :
    StaysWithin c.size Prod.snd (readMoreItems (fuel + 1) depth c) := by
  rw [readMoreItems, ← size_skipSpace c]
  generalize c.skipSpace = c
  dsimp only
  split
  next => exact staysWithin_failAtNext c _
  next rest hrest => exact Cursor.size_pass_one hrest rfl
  next rest hrest =>
    rw [← Cursor.size_pass_one hrest rfl, ← size_skipSpace]
    generalize Cursor.skipSpace _ = behind
    split
    next => exact staysWithin_failAtNext behind _
    next => exact staysWithin_failAtNext behind _
    next => exact readItem_staysWithin h depth behind
  next => exact staysWithin_failAtNext c _

private theorem readPairs_succ (h : DocumentsStayWithin fuel) (depth : Nat) (c : Cursor) :
    StaysWithin c.size Prod.snd (readPairs (fuel + 1) depth c) := by
  rw [readPairs, ← size_skipSpace c]
  generalize c.skipSpace = c
  split
  next => exact staysWithin_failAtNext c _
  next rest hrest => exact Cursor.size_pass_one hrest rfl
  next rest hrest =>
    rw [← Cursor.size_pass_one hrest rfl]
    exact h.pair depth _
  next => exact staysWithin_failAtNext c _

private theorem readPair_succ (h : DocumentsStayWithin fuel) (depth : Nat) (c : Cursor) :
    StaysWithin c.size Prod.snd (readPair (fuel + 1) depth c) := by
  rw [readPair]
  refine (readString_staysWithin c).bind ?_
  rintro ⟨key, behind⟩ (hbehind : behind.size = c.size)
  rw [← hbehind, ← size_skipSpace behind]
  dsimp only
  generalize behind.skipSpace = next
  split
  next => exact staysWithin_failAtNext next _
  next rest hrest =>
    rw [← Cursor.size_pass_one hrest rfl]
    refine (h.value depth _).bind ?_
    rintro ⟨value, after⟩ (hafter : after.size = _)
    rw [← hafter]
    refine (h.morePairs depth after).bind ?_
    rintro ⟨more, last⟩ (hlast : last.size = after.size)
    exact hlast
  next => exact staysWithin_failAtNext next _

private theorem readMorePairs_succ (h : DocumentsStayWithin fuel) (depth : Nat) (c : Cursor) :
    StaysWithin c.size Prod.snd (readMorePairs (fuel + 1) depth c) := by
  rw [readMorePairs, ← size_skipSpace c]
  generalize c.skipSpace = c
  dsimp only
  split
  next => exact staysWithin_failAtNext c _
  next rest hrest => exact Cursor.size_pass_one hrest rfl
  next rest hrest =>
    rw [← Cursor.size_pass_one hrest rfl, ← size_skipSpace]
    generalize Cursor.skipSpace _ = behind
    split
    next => exact staysWithin_failAtNext behind _
    next rest hrest =>
      rw [← Cursor.size_pass_one hrest rfl]
      exact h.pair depth _
    next => exact staysWithin_failAtNext behind _
    next => exact staysWithin_failAtNext behind _
  next => exact staysWithin_failAtNext c _

private theorem documentsStayWithin (fuel : Nat) : DocumentsStayWithin fuel := by
  induction fuel with
  | zero =>
    constructor
    all_goals
      intro depth c
      simp only [readValue, readItems, readMoreItems, readPairs, readPair, readMorePairs]
      exact staysWithin_failAtNext c _
  | succ fuel ih =>
    exact ⟨readValue_succ ih, readItems_succ ih, readMoreItems_succ ih, readPairs_succ ih, readPair_succ ih,
      readMorePairs_succ ih⟩

/-- A text is never read past its end. -/
theorem bytesRead_le {depth : Nat} {text : List Char} {e : ReadError} (h : readWithin depth text = .error e) :
    e.bytesRead ≤ byteCount text := by
  have hvalue : StaysWithin (byteCount text) Prod.snd (readValue (3 * text.length + 3) depth ⟨text, 0⟩) := by
    have hsize : Cursor.size ⟨text, 0⟩ = byteCount text := Nat.zero_add _
    exact hsize ▸ (documentsStayWithin _).value depth ⟨text, 0⟩
  rw [readWithin] at h
  cases hread : readValue (3 * text.length + 3) depth ⟨text, 0⟩ with
  | error fault =>
    rw [hread] at h hvalue
    cases h
    exact hvalue
  | ok found =>
    obtain ⟨value, behind⟩ := found
    rw [hread] at h hvalue
    have hbehind : behind.skipSpace.size = byteCount text := (size_skipSpace behind).trans hvalue
    dsimp only [bind, Except.bind] at h
    split_ifs at h
    · contradiction
    have hlast : StaysWithin (byteCount text) (fun _ : Tree => behind.skipSpace) (.error e) := by
      rw [← hbehind, ← h]
      exact staysWithin_failAtNext _ _
    exact hlast

end Documents

end Tabulate.Json
