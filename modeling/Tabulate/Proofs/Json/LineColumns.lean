import Mathlib.Data.List.DropRight
import Tabulate.Proofs.Json.Faults
import Tabulate.Proofs.Outcomes

/-! The line and the column of a byte, and the offset that is computed back from them: it is that of the byte
before, on the same line, or of the byte itself where its line begins. -/
namespace Tabulate.Json

/-- The line, from one, on which a text goes on behind some bytes of it. -/
def lineBehind (before : List Nat) : Nat := 1 + before.count 10

/-- The number of bytes up to the start of that line, which is behind the last line feed. -/
def lineStart (before : List Nat) : Nat := (before.rdropWhile (· ≠ 10)).length

section Lines
variable {before : List Nat}

private theorem lineStart_le (before : List Nat) : lineStart before ≤ before.length :=
  (List.rdropWhile_prefix _ _).length_le

private theorem lineStart_of_notMem (h : 10 ∉ before) : lineStart before = 0 := by
  rw [lineStart, List.length_eq_zero_iff, List.rdropWhile_eq_nil_iff]
  intro b hb
  exact decide_eq_true fun heq => h (heq ▸ hb)

private theorem lineStart_append (before more : List Nat) : lineStart (before ++ more) =
    if 10 ∈ more then before.length + lineStart more else lineStart before := by
  have hnil : (more.reverse.dropWhile (fun b => decide (b ≠ 10))).isEmpty = true ↔ 10 ∉ more := by
    rw [List.isEmpty_iff, List.dropWhile_eq_nil_iff]
    simp only [List.mem_reverse, decide_eq_true_eq]
    exact ⟨fun h mem => h 10 mem rfl, fun h b mem heq => h (heq ▸ mem)⟩
  rw [lineStart, lineStart, lineStart, List.rdropWhile, List.rdropWhile, List.rdropWhile, List.reverse_append,
    List.dropWhile_append]
  by_cases h : 10 ∈ more
  · rw [if_neg (fun hempty => hnil.mp hempty h), if_pos h, List.reverse_append, List.reverse_reverse,
      List.length_append]
  · rw [if_pos (hnil.mpr h), if_neg h]

private theorem lineStart_feed_cons (before : List Nat) : lineStart (10 :: before) = 1 + lineStart before := by
  have happend := lineStart_append [10] before
  by_cases h : 10 ∈ before
  · rwa [if_pos h] at happend
  · rw [if_neg h] at happend
    rw [lineStart_of_notMem h]
    exact happend

end Lines

section Columns
open Utf8 (bytesOf)

private theorem bytesOf_feed : bytesOf '\n' = [10] := by decide

private theorem feed_notMem_bytesOf {c : Char} (other : c ≠ '\n') : 10 ∉ bytesOf c := by
  rcases Utf8.bytesOf_cases c with ⟨-, hbytes⟩ | ⟨-, hlarge⟩
  · rw [hbytes, List.mem_singleton]
    exact fun heq => other (Char.toNat_inj.mp heq.symm)
  · exact fun mem => absurd (hlarge 10 mem) (by decide)

private theorem lines_cons (c : Char) (text : List Char) (index : Nat) :
    let before := ((c :: text).flatMap bytesOf).take index
    let rest := (text.flatMap bytesOf).take (index - c.utf8Size)
    index < c.utf8Size ∧ before.count 10 = 0 ∧ lineStart before = 0 ∨
      c.utf8Size ≤ index ∧ c = '\n' ∧ before.count 10 = rest.count 10 + 1 ∧ lineStart before = 1 + lineStart rest ∨
        c.utf8Size ≤ index ∧ c ≠ '\n' ∧ before.count 10 = rest.count 10 ∧
          lineStart before = if rest.count 10 = 0 then 0 else c.utf8Size + lineStart rest := by
  intro before rest
  have hbefore : before = (bytesOf c).take index ++ rest := by
    simp only [before, rest, List.flatMap_cons, List.take_append, Utf8.length_bytesOf]
  rcases Nat.lt_or_ge index c.utf8Size with inside | behind
  · have hnone : 10 ∉ before := by
      have hrest : rest = [] := by simp only [rest, Nat.sub_eq_zero_of_le (Nat.le_of_lt inside), List.take_zero]
      rw [hbefore, hrest, List.append_nil]
      by_cases h : c = '\n'
      · subst h
        rw [Nat.lt_one_iff.mp inside, List.take_zero]
        exact List.not_mem_nil
      · exact fun mem => feed_notMem_bytesOf h (List.mem_of_mem_take mem)
    exact .inl ⟨inside, List.count_eq_zero.mpr hnone, lineStart_of_notMem hnone⟩
  · rw [List.take_of_length_le (by rwa [Utf8.length_bytesOf])] at hbefore
    by_cases h : c = '\n'
    · refine .inr (.inl ⟨behind, h, ?_⟩)
      rw [hbefore, h, bytesOf_feed, List.singleton_append]
      exact ⟨List.count_cons_self, lineStart_feed_cons rest⟩
    · refine .inr (.inr ⟨behind, h, ?_, ?_⟩)
      · rw [hbefore, List.count_append, List.count_eq_zero.mpr (feed_notMem_bytesOf h), Nat.zero_add]
      · rw [hbefore, lineStart_append, Utf8.length_bytesOf, lineStart_of_notMem (feed_notMem_bytesOf h)]
        simp only [List.count_eq_zero, ite_not]

private theorem linesSize_count (text : List Char) (index : Nat) :
    linesSize (((text.flatMap bytesOf).take index).count 10) text =
      lineStart ((text.flatMap bytesOf).take index) := by
  induction text generalizing index with
  | nil =>
    rw [List.flatMap_nil, List.take_nil]
    rfl
  | cons c text ih =>
    have hrest := ih (index - c.utf8Size)
    rcases lines_cons c text index with ⟨-, hcount, hstart⟩ | ⟨-, hc, hcount, hstart⟩ | ⟨-, hc, hcount, hstart⟩
    · rw [hcount, hstart, linesSize]
    · rw [hcount, hstart, linesSize, if_pos hc, hrest, hc]
      rfl
    · rw [hcount, hstart]
      split
      next hnone => rw [hnone, linesSize]
      next hsome =>
        obtain ⟨lines, hlines⟩ := Nat.exists_eq_succ_of_ne_zero hsome
        rw [← hrest, hlines, linesSize, if_neg hc]

private theorem go_cons (line column : Nat) (c : Char) (text : List Char) (index : Nat) :
    lineColumn.go line column (c :: text) index =
      if index < c.utf8Size then (line, column + index)
      else if c = '\n' then lineColumn.go (line + 1) 0 text (index - 1)
      else lineColumn.go line (column + c.utf8Size) text (index - c.utf8Size) := by
  cases index with
  | zero => rw [if_pos c.utf8Size_pos, lineColumn.go, Nat.add_zero]
  | succ index => rfl

private theorem go_eq (text : List Char) {index : Nat} (h : index ≤ byteCount text) (line column : Nat) :
    let before := (text.flatMap bytesOf).take index
    lineColumn.go line column text index =
      (line + before.count 10, if before.count 10 = 0 then column + index else index - lineStart before) := by
  -- the line and the column are counted on from those at the start of the text
  induction text generalizing index line column with
  | nil =>
    obtain rfl : index = 0 := Nat.le_zero.mp h
    rfl
  | cons c text ih =>
    rw [byteCount_cons] at h
    have hrest := @ih (index - c.utf8Size) (by omega)
    rcases lines_cons c text index with ⟨hindex, hcount, hstart⟩ | ⟨hindex, hc, hcount, hstart⟩ |
      ⟨hindex, hc, hcount, hstart⟩
    · rw [go_cons, if_pos hindex]
      simp only [hcount, if_true, Nat.add_zero]
    · obtain rfl := hc
      have hsize : '\n'.utf8Size = 1 := rfl
      rw [go_cons, if_neg (Nat.not_lt.mpr hindex), if_pos rfl]
      rw [hsize] at hrest hcount hstart
      simp only [hcount, hstart, hrest, Nat.succ_ne_zero, if_false]
      refine Prod.ext (by dsimp only; omega) ?_
      split
      next hnone => rw [lineStart_of_notMem (List.count_eq_zero.mp hnone), Nat.zero_add, Nat.add_zero]
      next => rw [Nat.sub_sub]
    · rw [go_cons, if_neg (Nat.not_lt.mpr hindex), if_neg hc]
      simp only [hcount, hstart, hrest]
      split
      next => rw [Nat.add_assoc, Nat.add_sub_of_le hindex]
      next => rw [Nat.sub_sub]

end Columns

variable {text : String} {index : Nat}

/-- The line and the column of a byte index: how many lines end before it, and how far it is from the last end. -/
theorem lineColumn_eq (h : index ≤ (Utf8.encode text).length) :
    lineColumn text.toList index = (lineBehind ((Utf8.encode text).take index),
      index - lineStart ((Utf8.encode text).take index)) := by
  rw [Utf8.length_encode] at h
  rw [lineColumn, go_eq _ h, Utf8.encode_eq_flatMap]
  refine Prod.ext rfl ?_
  split
  next hnone => rw [lineStart_of_notMem (List.count_eq_zero.mp hnone), Nat.zero_add, Nat.sub_zero]
  next => rfl

/-- The offset that is computed back from the line and the column of a byte index. -/
theorem byteOffset_lineBehind (h : index ≤ (Utf8.encode text).length) :
    let before := (Utf8.encode text).take index
    byteOffset text.toList (lineBehind before) (index - lineStart before) =
      if 0 < index - lineStart before then index - 1 else index := by
  intro before
  have hlines : linesSize (lineBehind before - 1) text.toList = lineStart before := by
    have hcount := linesSize_count text.toList index
    rw [← Utf8.encode_eq_flatMap] at hcount
    rw [lineBehind, Nat.add_sub_cancel_left, hcount]
  have hstart : lineStart before ≤ index := (lineStart_le before).trans (List.length_take_le _ _)
  have hline : lineBehind before ≠ 0 := Nat.ne_of_gt (Nat.add_pos_left Nat.one_pos _)
  rw [byteOffset, if_neg hline, hlines, ← Utf8.length_encode]
  split <;> omega

/-- The byte before another one is on the same line, unless a line begins between them. -/
theorem lineBehind_pred {bytes : List Nat} (h : index ≤ bytes.length) (within : lineStart (bytes.take index) < index) :
    lineBehind (bytes.take (index - 1)) = lineBehind (bytes.take index) := by
  obtain ⟨previous, rfl⟩ := Nat.exists_eq_succ_of_ne_zero (Nat.ne_of_gt (Nat.zero_lt_of_lt within))
  rw [List.take_succ_eq_append_getElem h] at within ⊢
  have hbyte : bytes[previous] ≠ 10 := by
    intro hfeed
    rw [hfeed, lineStart_append, if_pos List.mem_cons_self, lineStart_feed_cons, List.length_take] at within
    omega
  rw [Nat.succ_sub_one, lineBehind, lineBehind, List.count_append, List.count_singleton, beq_eq_false_iff_ne.mpr hbyte]
  rfl

private theorem exists_of_read_eq_error {e : SyntaxError} (h : read text = .error e) :
    ∃ fault : ReadError, fault.bytesRead ≤ (Utf8.encode text).length ∧ fault.locate text.toList = e := by
  rw [read, Tree.read] at h
  cases hread : readWithin maxDepth text.toList with
  | ok value =>
    rw [hread] at h
    contradiction
  | error fault =>
    rw [hread] at h
    cases h
    rw [Utf8.length_encode]
    exact ⟨fault, bytesRead_le hread, rfl⟩

/-- The offset that is computed back from a line and a column is that of the byte before, or that of the byte itself
in the first column; so the offset of a fault is on the line where the fault is. -/
theorem byteOffset_place (text : String) :
    (∀ index ≤ (Utf8.encode text).length,
      let before := (Utf8.encode text).take index
      byteOffset text.toList (lineBehind before) (index - lineStart before) =
        if 0 < index - lineStart before then index - 1 else index) ∧
    ∀ e, read text = .error e →
      (∃ index ≤ (Utf8.encode text).length,
        let before := (Utf8.encode text).take index
        e.line = lineBehind before ∧ e.column = index - lineStart before) ∧
      e.offset ≤ (Utf8.encode text).length ∧ lineBehind ((Utf8.encode text).take e.offset) = e.line := by
  refine ⟨fun index h => byteOffset_lineBehind h, fun e h => ?_⟩
  obtain ⟨fault, hread, rfl⟩ := exists_of_read_eq_error h
  have hplace : fault.locate text.toList =
      let before := (Utf8.encode text).take fault.bytesRead
      ⟨fault.fault, lineBehind before, fault.bytesRead - lineStart before,
        if 0 < fault.bytesRead - lineStart before then fault.bytesRead - 1 else fault.bytesRead⟩ := by
    rw [ReadError.locate, lineColumn_eq hread]
    dsimp only
    rw [byteOffset_lineBehind hread]
  rw [hplace]
  refine ⟨⟨fault.bytesRead, hread, rfl, rfl⟩, ?_⟩
  dsimp only
  split
  next hcolumn => exact ⟨by omega, lineBehind_pred hread (by omega)⟩
  next => exact ⟨hread, rfl⟩

/-- A comma too much behind a blank line and a letter of two bytes. -/
theorem byteOffset_place_comma :
    let text := "[1,\n\n\"é\",]\n"
    byteOffset text.toList 3 0 = 5 ∧ byteOffset text.toList 3 2 = 6 ∧ byteOffset text.toList 4 0 = 12 ∧
      read text = .error ⟨.trailingComma, 3, 6, 10⟩ ∧ lineBehind ((Utf8.encode text).take 10) = 3 := by
  have hread : read "[1,\n\n\"é\",]\n" = .error ⟨.trailingComma, 3, 6, 10⟩ :=
    eq_error_of_errorOf? (by decide +kernel)
  have hbytes : Utf8.encode "[1,\n\n\"é\",]\n" = [91, 49, 44, 10, 10, 34, 195, 169, 34, 44, 93, 10] := by
    rw [Utf8.encode_eq_flatMap]
    decide
  have hlines := byteOffset_place "[1,\n\n\"é\",]\n"
  dsimp only
  rw [hbytes] at hlines ⊢
  obtain ⟨hoffset, hfault⟩ := hlines
  exact ⟨hoffset 5 (by decide), hoffset 7 (by decide), hoffset 12 (by decide), hread, (hfault _ hread).2.2⟩

end Tabulate.Json
