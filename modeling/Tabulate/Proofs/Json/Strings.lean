import Mathlib.Tactic.IntervalCases
import Mathlib.Tactic.SplitIfs
import Tabulate.Json.Printer
import Tabulate.Json.Reader

/-! Reading a quoted text gives back the text and stops at its closing quote, so no quoted
text is the start of another one. -/
namespace Tabulate.Json

private theorem hexFour?_hexPair {n : Nat} (h : n < 32) (rest : List Char) :
    hexFour? ('0' :: '0' :: (hexPair n ++ rest)) = some (n, rest) := by
  interval_cases n <;> rfl

private theorem readUnicode_hexPair {c : Char} (h : c.toNat < 32) (rest : List Char) (index : Nat) :
    readUnicode ⟨'0' :: '0' :: (hexPair c.toNat ++ rest), index⟩ = .ok (c, ⟨rest, index + 4⟩) := by
  have hlow : ¬ 56320 ≤ c.toNat := by omega
  have hlead : c.toNat < 55296 := by omega
  have hread : readHex ⟨'0' :: '0' :: (hexPair c.toNat ++ rest), index⟩ =
      .ok (c.toNat, ⟨rest, index + 4⟩) := by
    simp only [readHex, hexFour?_hexPair h]
  rw [readUnicode, hread]
  simp [bind, Except.bind, pure, Except.pure, hlow, hlead]

private theorem readChars_escape (c : Char) (fuel : Nat) (rest : List Char) (index : Nat) :
    ∃ next, readChars (fuel + 1) ⟨escape c ++ rest, index⟩ = (do
      let (more, cursor) ← readChars fuel ⟨rest, next⟩
      return (c :: more, cursor)) := by
  unfold escape
  split_ifs with quote backslash newline return' tab backspace formFeed control
  · subst quote; exact ⟨_, rfl⟩
  · subst backslash; exact ⟨_, rfl⟩
  · subst newline; exact ⟨_, rfl⟩
  · subst return'; exact ⟨_, rfl⟩
  · subst tab; exact ⟨_, rfl⟩
  · obtain rfl : c = Char.ofNat 8 := by rw [← backspace, Char.ofNat_toNat]
    exact ⟨_, rfl⟩
  · obtain rfl : c = Char.ofNat 12 := by rw [← formFeed, Char.ofNat_toNat]
    exact ⟨_, rfl⟩
  · refine ⟨index + 1 + 1 + 4, ?_⟩
    have hread := readUnicode_hexPair control rest (index + 1 + 1)
    simp only [List.cons_append, readChars, readEscape, hread]
    rfl
  · refine ⟨index + c.utf8Size, ?_⟩
    rw [List.singleton_append, readChars.eq_def]
    split <;> simp_all

/-- The characters of a quoted text are read up to its closing quote. -/
theorem readChars_flatMap_escape (text rest : List Char) (fuel index : Nat) (h : text.length < fuel) :
    ∃ next, readChars fuel ⟨text.flatMap escape ++ '"' :: rest, index⟩ = .ok (text, ⟨rest, next⟩) := by
  induction text generalizing fuel index with
  | nil =>
    obtain ⟨fuel, rfl⟩ := Nat.exists_eq_succ_of_ne_zero (Nat.ne_of_gt h)
    exact ⟨_, rfl⟩
  | cons c text ih =>
    obtain ⟨fuel, rfl⟩ := Nat.exists_eq_succ_of_ne_zero (Nat.ne_of_gt (Nat.zero_lt_of_lt h))
    rw [List.flatMap_cons, List.append_assoc]
    obtain ⟨next, hc⟩ := readChars_escape c fuel (text.flatMap escape ++ '"' :: rest) index
    obtain ⟨last, hmore⟩ := ih fuel next (Nat.lt_of_succ_lt_succ h)
    refine ⟨last, ?_⟩
    rw [hc, hmore]
    rfl

/-- Two quoted texts at the start of one text are the same, and so is what follows them. -/
theorem quoted_append_inj {s t : String} {u v : List Char} (h : quoted s ++ u = quoted t ++ v) :
    s = t ∧ u = v := by
  simp only [quoted, List.cons_append, List.append_assoc, List.cons.injEq, true_and,
    List.nil_append] at h
  let fuel := s.toList.length + t.toList.length + 1
  obtain ⟨i, hs⟩ := readChars_flatMap_escape s.toList u fuel 0 (by omega)
  obtain ⟨j, ht⟩ := readChars_flatMap_escape t.toList v fuel 0 (by omega)
  rw [h, ht] at hs
  simp only [Except.ok.injEq, Prod.mk.injEq, Cursor.mk.injEq] at hs
  exact ⟨(String.toList_inj.mp hs.1).symm, hs.2.1.symm⟩

end Tabulate.Json
