/-! Splitting a text at a separator, and joining parts with one. -/
namespace Tabulate.Text

/-- Splits at each occurrence of a separator, from left to right. The first argument is the
number of characters of a separator still to be passed over, the second the part read so
far, in reverse. -/
private def splitFrom (separator : List Char) : Nat → List Char → List Char → List (List Char)
  | _, part, [] => [part.reverse]
  | skip + 1, part, _ :: rest => splitFrom separator skip part rest
  | 0, part, c :: rest =>
    if separator.isPrefixOf (c :: rest) then
      part.reverse :: splitFrom separator (separator.length - 1) [] rest
    else splitFrom separator 0 (c :: part) rest

/-- The parts of a text between the occurrences of a separator that is not empty. -/
def splitAt (separator text : List Char) : List (List Char) := splitFrom separator 0 [] text

section Split
variable {separator rest : List Char} {c : Char}

private theorem splitFrom_skip (separator : List Char) (skip : Nat) (part text : List Char) :
    splitFrom separator skip part text = splitFrom separator 0 part (text.drop skip) := by
  induction text generalizing skip with
  | nil => cases skip <;> simp [splitFrom]
  | cons c rest ih =>
    cases skip with
    | zero => rfl
    | succ skip => rw [splitFrom, ih, List.drop_succ_cons]

private theorem splitFrom_part (separator part text : List Char) (skip : Nat) :
    splitFrom separator skip part text = (splitFrom separator skip [] text).modifyHead (part.reverse ++ ·) := by
  induction text generalizing part skip with
  | nil => simp [splitFrom]
  | cons c rest ih =>
    cases skip with
    | succ skip => exact ih part skip
    | zero =>
      rw [splitFrom, splitFrom]
      split
      · simp
      · rw [ih (c :: part), ih [c], List.modifyHead_modifyHead]
        congr 1
        funext first
        simp

@[simp] theorem splitAt_nil (separator : List Char) : splitAt separator [] = [[]] := rfl

/-- A separator in front ends an empty part. -/
theorem splitAt_append (nonempty : separator ≠ []) (rest : List Char) :
    splitAt separator (separator ++ rest) = [] :: splitAt separator rest := by
  obtain ⟨c, more, rfl⟩ := List.exists_cons_of_ne_nil nonempty
  have found : (c :: more).isPrefixOf (c :: (more ++ rest)) = true :=
    List.isPrefixOf_iff_prefix.mpr (List.prefix_append (c :: more) rest)
  rw [splitAt, List.cons_append, splitFrom, if_pos found, splitFrom_skip, List.length_cons, Nat.add_sub_cancel,
    List.drop_left]
  rfl

/-- A character that starts no separator belongs to the first part. -/
theorem splitAt_cons (other : ¬ separator <+: c :: rest) :
    splitAt separator (c :: rest) = (splitAt separator rest).modifyHead (c :: ·) := by
  rw [splitAt, splitFrom, if_neg fun found => other (List.isPrefixOf_iff_prefix.mp found), splitFrom_part]
  rfl

end Split

def holds (text part : List Char) : Bool :=
  match text with
  | [] => part.isEmpty
  | c :: rest => part.isPrefixOf (c :: rest) || holds rest part

end Tabulate.Text
