import Mathlib.Data.List.Induction
import Mathlib.Tactic.SplitIfs
import Tabulate.Markup.Tree

/-! Texts as they stand in markup: the characters that markup is made of are written as
references. What is read is the text again, without the white space around it. -/
namespace Tabulate.Markup

def escape (c : Char) : List Char :=
  if c = '&' then "&amp;".toList
  else if c = '<' then "&lt;".toList
  else if c = '>' then "&gt;".toList
  else if c = '"' then "&quot;".toList
  else if c = '\'' then "&apos;".toList
  else [c]

def escaped (text : List Char) : List Char := text.flatMap escape

private theorem unescapeFrom_escape (size offset : Nat) (c : Char) (rest : List Char) :
    ∃ next, unescapeFrom size offset none (escape c ++ rest) =
      (unescapeFrom size next none rest).map (c :: ·) := by
  unfold escape
  split_ifs with amp less greater quote apostrophe
  · subst amp
    exact ⟨_, rfl⟩
  · subst less
    exact ⟨_, rfl⟩
  · subst greater
    exact ⟨_, rfl⟩
  · subst quote
    exact ⟨_, rfl⟩
  · subst apostrophe
    exact ⟨_, rfl⟩
  · refine ⟨offset + c.utf8Size, ?_⟩
    rw [List.singleton_append, unescapeFrom, if_neg amp]

private theorem unescapeFrom_escaped (size : Nat) (text : List Char) (offset : Nat) :
    unescapeFrom size offset none (escaped text) = .ok text := by
  induction text generalizing offset with
  | nil => rfl
  | cons c text ih =>
    obtain ⟨next, hc⟩ := unescapeFrom_escape size offset c (escaped text)
    rw [escaped, List.flatMap_cons]
    exact hc.trans (by rw [ih next]; rfl)

private theorem unescape_escaped (text : List Char) : unescape (escaped text) = .ok text :=
  unescapeFrom_escaped _ text 0

theorem textOf_escaped (text : List Char) : textOf .xml (escaped text) = .ok text := by
  simp only [textOf, unescape_escaped]

private theorem mem_plain {word : String} {d : Char}
    (h : (word.toList.all fun c => c != '<' && c != '>' && c != '"' && c != '\'') = true)
    (hd : d ∈ word.toList) : d ≠ '<' ∧ d ≠ '>' ∧ d ≠ '"' ∧ d ≠ '\'' := by
  simpa [and_assoc] using List.all_eq_true.mp h d hd

/-- No mark of markup is left in a written character. -/
theorem mem_escape {c d : Char} (h : d ∈ escape c) : d ≠ '<' ∧ d ≠ '>' ∧ d ≠ '"' ∧ d ≠ '\'' := by
  unfold escape at h
  split_ifs at h with amp less greater quote apostrophe
  · exact mem_plain (by decide) h
  · exact mem_plain (by decide) h
  · exact mem_plain (by decide) h
  · exact mem_plain (by decide) h
  · exact mem_plain (by decide) h
  · rw [List.mem_singleton.mp h]
    exact ⟨less, greater, quote, apostrophe⟩

theorem escaped_ne_nil {text : List Char} (h : text ≠ []) : escaped text ≠ [] := by
  obtain ⟨c, more, rfl⟩ := List.exists_cons_of_ne_nil h
  have hc : escape c ≠ [] := by
    unfold escape
    split_ifs <;> simp
  simp [escaped, hc]

theorem mem_escaped {text : List Char} {d : Char} (h : d ∈ escaped text) :
    d ≠ '<' ∧ d ≠ '>' ∧ d ≠ '"' ∧ d ≠ '\'' := by
  obtain ⟨c, -, hd⟩ := List.mem_flatMap.mp h
  exact mem_escape hd

section Spaces
variable {c : Char}

theorem isSpace_cases (h : isSpace c = true) : c = ' ' ∨ c = '\t' ∨ c = '\r' ∨ c = '\n' := by
  simpa only [isSpace, Bool.or_eq_true, decide_eq_true_eq, or_assoc] using h

private theorem escape_space (h : isSpace c = true) : escape c = [c] := by
  unfold escape
  split_ifs <;> first | rfl | (subst c; contradiction)

private theorem escape_first (h : isSpace c = false) :
    ∃ first more, escape c = first :: more ∧ isSpace first = false := by
  unfold escape
  split_ifs <;> first | exact ⟨_, _, rfl, rfl⟩ | exact ⟨_, _, rfl, h⟩

private theorem escape_last (h : isSpace c = false) :
    ∃ last more, (escape c).reverse = last :: more ∧ isSpace last = false := by
  unfold escape
  split_ifs <;> first | exact ⟨_, _, rfl, rfl⟩ | exact ⟨_, _, rfl, h⟩

private theorem dropWhile_escaped (text : List Char) :
    (escaped text).dropWhile isSpace = escaped (text.dropWhile isSpace) := by
  induction text with
  | nil => rfl
  | cons c text ih =>
    rw [escaped, List.flatMap_cons]
    cases h : isSpace c with
    | true =>
      rw [escape_space h, List.singleton_append, List.dropWhile_cons_of_pos h,
        List.dropWhile_cons_of_pos h]
      exact ih
    | false =>
      obtain ⟨first, more, hfirst, solid⟩ := escape_first h
      have hc : ¬ isSpace c = true := by simp [h]
      have hf : ¬ isSpace first = true := by simp [solid]
      rw [List.dropWhile_cons_of_neg hc, hfirst, List.cons_append, List.dropWhile_cons_of_neg hf,
        escaped, List.flatMap_cons, hfirst, List.cons_append]

private theorem trimEnd_append_space (text : List Char) (h : isSpace c = true) :
    trimEnd (text ++ [c]) = trimEnd text := by
  rw [trimEnd, List.reverse_append, List.reverse_singleton, List.singleton_append,
    List.dropWhile_cons_of_pos h]
  rfl

theorem trimEnd_append_solid (text : List Char) {part more : List Char}
    (hpart : part.reverse = c :: more) (h : isSpace c = false) :
    trimEnd (text ++ part) = text ++ part := by
  have hc : ¬ isSpace c = true := by simp [h]
  rw [trimEnd, List.reverse_append, hpart, List.cons_append, List.dropWhile_cons_of_neg hc,
    ← List.cons_append, ← hpart, ← List.reverse_append, List.reverse_reverse]

private theorem trimEnd_escaped (text : List Char) : trimEnd (escaped text) = escaped (trimEnd text) := by
  induction text using List.reverseRecOn with
  | nil => rfl
  | append_singleton text c ih =>
    have happend : escaped (text ++ [c]) = escaped text ++ escape c := by
      simp only [escaped, List.flatMap_append, List.flatMap_singleton]
    cases h : isSpace c with
    | true =>
      rw [happend, escape_space h, trimEnd_append_space _ h, trimEnd_append_space _ h, ih]
    | false =>
      obtain ⟨last, more, hlast, solid⟩ := escape_last h
      rw [happend, trimEnd_append_solid _ hlast solid, trimEnd_append_solid _ rfl h, happend]

def stripped (text : List Char) : List Char := trimEnd (text.dropWhile isSpace)

private theorem isBlank_of_isSpace (h : isSpace c = true) : Unicode.isBlank c = true := by
  obtain rfl | rfl | rfl | rfl := isSpace_cases h <;> decide

private theorem dropWhile_isBlank (text : List Char) :
    (text.dropWhile isSpace).dropWhile Unicode.isBlank = text.dropWhile Unicode.isBlank := by
  induction text with
  | nil => rfl
  | cons c text ih =>
    cases h : isSpace c with
    | true =>
      rw [List.dropWhile_cons_of_pos h, List.dropWhile_cons_of_pos (isBlank_of_isSpace h), ih]
    | false => rw [List.dropWhile_cons_of_neg (by simp [h])]

private theorem trim_append_blank (text : List Char) (h : Unicode.isBlank c = true) :
    Unicode.trim (text ++ [c]) = Unicode.trim text := by
  unfold Unicode.trim
  rw [List.dropWhile_append]
  split_ifs with blank
  · rw [List.isEmpty_iff.mp blank, List.dropWhile_cons_of_pos h]
    rfl
  · rw [List.reverse_append, List.reverse_singleton, List.singleton_append,
      List.dropWhile_cons_of_pos h]

private theorem trim_trimEnd (text : List Char) : Unicode.trim (trimEnd text) = Unicode.trim text := by
  induction text using List.reverseRecOn with
  | nil => rfl
  | append_singleton text c ih =>
    cases h : isSpace c with
    | true => rw [trimEnd_append_space _ h, ih, trim_append_blank _ (isBlank_of_isSpace h)]
    | false => rw [trimEnd_append_solid _ rfl h]

/-- The white space of markup is also white space of texts. -/
theorem trim_stripped (text : List Char) : Unicode.trim (stripped text) = Unicode.trim text := by
  rw [stripped, trim_trimEnd, Unicode.trim, dropWhile_isBlank]
  rfl

end Spaces

section Events
variable {text rest : List Char}

/-- White space before a tag is passed over. -/
theorem next?_blank (blank : text.dropWhile isSpace = []) : next? (escaped text ++ rest) = next? rest := by
  have hdrop : (escaped text ++ rest).dropWhile isSpace = rest.dropWhile isSpace := by
    rw [List.dropWhile_append, dropWhile_escaped, blank]
    rfl
  rw [next?, next?, hdrop]

/-- A text before a tag is an event without the white space around it. -/
theorem next?_text (solid : text.dropWhile isSpace ≠ []) :
    next? (escaped text ++ '<' :: rest) = some (.text (escaped (stripped text)), '<' :: rest) := by
  obtain ⟨c, more, hcons⟩ := List.exists_cons_of_ne_nil (escaped_ne_nil solid)
  have hmem : ∀ d ∈ c :: more, d ≠ '<' := fun d hd => (mem_escaped (hcons ▸ hd)).1
  have hplain : ∀ d ∈ c :: more, decide (d ≠ '<') = true := fun d hd => decide_eq_true (hmem d hd)
  have hdrop : (escaped text ++ '<' :: rest).dropWhile isSpace = c :: (more ++ '<' :: rest) := by
    rw [List.dropWhile_append, dropWhile_escaped, hcons]
    rfl
  have htake : (c :: (more ++ '<' :: rest)).takeWhile (· ≠ '<') = c :: more := by
    rw [← List.cons_append, List.takeWhile_append_of_pos hplain]
    simp
  have hleft : (c :: (more ++ '<' :: rest)).dropWhile (· ≠ '<') = '<' :: rest := by
    rw [← List.cons_append, List.dropWhile_append_of_pos hplain]
    simp
  have hc : c ≠ '<' := hmem c List.mem_cons_self
  have hnext : next? (escaped text ++ '<' :: rest) =
      some (.text (trimEnd ((c :: (more ++ '<' :: rest)).takeWhile (· ≠ '<'))),
        (c :: (more ++ '<' :: rest)).dropWhile (· ≠ '<')) := by
    rw [next?.eq_def, hdrop]
    split
    · contradiction
    · rename_i heq
      exact absurd (List.cons.inj heq).1 hc
    · rfl
  rw [hnext, htake, hleft, ← hcons, trimEnd_escaped]
  rfl

end Events

end Tabulate.Markup
