import Tabulate.Proofs.Delimited.Lines

/-! The check of quotes accepts the records that are fields between delimiters, each without quotes, or in quotes
with the quotes inside it doubled. It goes by single characters, whose kind it takes from the dialect alone, so that
they may as well stand for the bytes of a text. -/
namespace Tabulate.Delimited
namespace Dialect

structure IsApart (d : Dialect) : Prop where
  delimiter_ne_quote : d.delimiter ≠ d.quote
  delimiter_ne_feed : d.delimiter ≠ '\n'
  delimiter_ne_return : d.delimiter ≠ '\r'
  quote_ne_feed : d.quote ≠ '\n'
  quote_ne_return : d.quote ≠ '\r'

/-- The text of a record, from some place in it to the line end that ends it. -/
def recordText (d : Dialect) : Place → List Char → List Char
  | _, [] => []
  | place, c :: rest =>
    match d.step place c with
    | .skip next | .take next => c :: recordText d next rest
    | .endField => c :: recordText d .fieldStart rest
    | .endRecord => []

/-- A field without quotes, or one in quotes in which every quote is doubled. -/
def IsField (d : Dialect) (field : List Char) : Prop :=
  d.quote ∉ field ∨ ∃ body, field = d.quote :: (d.doubled body ++ [d.quote])

def IsWellQuoted (d : Dialect) (record : List Char) : Prop :=
  ∃ fields, record = [d.delimiter].intercalate fields ∧ ∀ field ∈ fields, d.IsField field

private def GoesOn (d : Dialect) (text : List Char) : Prop :=
  text = [] ∨ ∃ more, text = d.delimiter :: more ∧ d.IsWellQuoted more

private def GoesOnBare (d : Dialect) (text : List Char) : Prop :=
  ∃ field after, text = field ++ after ∧ d.quote ∉ field ∧ d.GoesOn after

private def GoesOnQuoted (d : Dialect) (text : List Char) : Prop :=
  ∃ body after, text = d.doubled body ++ d.quote :: after ∧ d.GoesOn after

variable {d : Dialect}

section Grammar
variable {c : Char} {text : List Char}

private theorem isWellQuoted_iff_exists : d.IsWellQuoted text ↔
    ∃ field after, text = field ++ after ∧ d.IsField field ∧ d.GoesOn after := by
  constructor
  · rintro ⟨fields, rfl, hfields⟩
    match fields with
    | [] => exact ⟨[], [], rfl, .inl List.not_mem_nil, .inl rfl⟩
    | [field] => exact ⟨field, [], by simp, hfields field List.mem_cons_self, .inl rfl⟩
    | field :: next :: fields =>
      obtain ⟨hfield, hmore⟩ := List.forall_mem_cons.mp hfields
      refine ⟨field, d.delimiter :: [d.delimiter].intercalate (next :: fields), ?_, hfield,
        .inr ⟨_, rfl, _, rfl, hmore⟩⟩
      rw [List.intercalate_cons_of_ne_nil (List.cons_ne_nil _ _)]
      simp
  · rintro ⟨field, after, rfl, hfield, rfl | ⟨_, rfl, fields, rfl, hfields⟩⟩
    · exact ⟨[field], by simp, by simpa using hfield⟩
    · cases fields with
      | nil =>
        refine ⟨[field, []], by simp [List.intercalate], ?_⟩
        simpa using ⟨hfield, .inl List.not_mem_nil⟩
      | cons next fields =>
        refine ⟨field :: next :: fields, ?_, List.forall_mem_cons.mpr ⟨hfield, hfields⟩⟩
        rw [List.intercalate_cons_of_ne_nil (List.cons_ne_nil _ _)]
        simp

private theorem isWellQuoted_iff : d.IsWellQuoted text ↔
    d.GoesOnBare text ∨ ∃ rest, text = d.quote :: rest ∧ d.GoesOnQuoted rest := by
  rw [isWellQuoted_iff_exists]
  constructor
  · rintro ⟨field, after, rfl, hbare | ⟨body, rfl⟩, hafter⟩
    · exact .inl ⟨field, after, rfl, hbare, hafter⟩
    · exact .inr ⟨d.doubled body ++ d.quote :: after, by simp, body, after, rfl, hafter⟩
  · rintro (⟨field, after, rfl, hbare, hafter⟩ | ⟨_, rfl, body, after, rfl, hafter⟩)
    · exact ⟨field, after, rfl, .inl hbare, hafter⟩
    · exact ⟨d.quote :: (d.doubled body ++ [d.quote]), after, by simp, .inr ⟨body, rfl⟩, hafter⟩

private theorem goesOn_cons : d.GoesOn (c :: text) ↔ c = d.delimiter ∧ d.IsWellQuoted text := by
  simp [GoesOn]

private theorem goesOnBare_nil : d.GoesOnBare [] := ⟨[], [], rfl, List.not_mem_nil, .inl rfl⟩

private theorem goesOnBare_cons : d.GoesOnBare (c :: text) ↔
    c = d.delimiter ∧ d.IsWellQuoted text ∨ c ≠ d.quote ∧ d.GoesOnBare text := by
  constructor
  · rintro ⟨field, after, heq, hbare, hafter⟩
    cases field with
    | nil =>
      obtain rfl : c :: text = after := heq
      exact .inl (goesOn_cons.mp hafter)
    | cons x field =>
      obtain ⟨rfl, rfl⟩ := List.cons.inj heq
      obtain ⟨hx, hfield⟩ := not_or.mp (List.mem_cons.not.mp hbare)
      exact .inr ⟨Ne.symm hx, field, after, rfl, hfield, hafter⟩
  · rintro (hdelimiter | ⟨hc, field, after, rfl, hbare, hafter⟩)
    · exact ⟨[], c :: text, rfl, List.not_mem_nil, goesOn_cons.mpr hdelimiter⟩
    · exact ⟨c :: field, after, rfl, List.mem_cons.not.mpr (not_or.mpr ⟨Ne.symm hc, hbare⟩), hafter⟩

private theorem not_goesOnQuoted_nil : ¬ d.GoesOnQuoted [] := by
  rintro ⟨body, after, heq, -⟩
  exact List.append_ne_nil_of_right_ne_nil _ (List.cons_ne_nil _ _) heq.symm

private theorem goesOnQuoted_cons (hc : c ≠ d.quote) : d.GoesOnQuoted (c :: text) ↔ d.GoesOnQuoted text := by
  constructor
  · rintro ⟨body, after, heq, hafter⟩
    cases body with
    | nil => exact absurd (List.cons.inj heq).1 hc
    | cons x body =>
      rw [doubled_cons] at heq
      split at heq
      next hx => exact absurd ((List.cons.inj heq).1.trans hx) hc
      next => exact ⟨body, after, (List.cons.inj heq).2, hafter⟩
  · rintro ⟨body, after, rfl, hafter⟩
    exact ⟨c :: body, after, by rw [doubled_cons, if_neg hc]; rfl, hafter⟩

private theorem goesOnQuoted_quote : d.GoesOnQuoted (d.quote :: text) ↔
    d.GoesOn text ∨ ∃ rest, text = d.quote :: rest ∧ d.GoesOnQuoted rest := by
  constructor
  · rintro ⟨body, after, heq, hafter⟩
    cases body with
    | nil =>
      obtain rfl := (List.cons.inj heq).2
      exact .inl hafter
    | cons x body =>
      rw [doubled_cons] at heq
      split at heq
      next hx =>
        subst hx
        exact .inr ⟨d.doubled body ++ d.quote :: after, (List.cons.inj heq).2, body, after, rfl, hafter⟩
      next hx => exact absurd (List.cons.inj heq).1.symm hx
  · rintro (hafter | ⟨_, rfl, body, after, rfl, hafter⟩)
    · exact ⟨[], text, rfl, hafter⟩
    · exact ⟨d.quote :: body, after, by rw [doubled_cons, if_pos rfl]; rfl, hafter⟩

private theorem goesOnQuoted_close (hhead : text.head? ≠ some d.quote) :
    d.GoesOnQuoted (d.quote :: text) ↔ d.GoesOn text := by
  rw [goesOnQuoted_quote]
  refine or_iff_left ?_
  rintro ⟨rest, rfl, -⟩
  exact hhead rfl

private theorem isWellQuoted_bare (hhead : text.head? ≠ some d.quote) : d.IsWellQuoted text ↔ d.GoesOnBare text := by
  rw [isWellQuoted_iff]
  refine or_iff_left ?_
  rintro ⟨rest, rfl, -⟩
  exact hhead rfl

private theorem goesOnBare_delimiter : d.GoesOnBare (d.delimiter :: text) ↔ d.IsWellQuoted text := by
  rw [goesOnBare_cons]
  exact ⟨fun h => h.elim And.right fun h => isWellQuoted_iff.mpr (.inl h.2), fun h => .inl ⟨rfl, h⟩⟩

private theorem goesOnBare_other (hdelimiter : c ≠ d.delimiter) (hquote : c ≠ d.quote) :
    d.GoesOnBare (c :: text) ↔ d.GoesOnBare text := by
  rw [goesOnBare_cons]
  simp [hdelimiter, hquote]

variable (apart : d.IsApart)
include apart

private theorem not_goesOnBare_quote : ¬ d.GoesOnBare (d.quote :: text) := by
  rw [goesOnBare_cons]
  exact fun h => h.elim (fun h => apart.delimiter_ne_quote h.1.symm) fun h => h.1 rfl

private theorem isWellQuoted_quote : d.IsWellQuoted (d.quote :: text) ↔ d.GoesOnQuoted text := by
  rw [isWellQuoted_iff]
  simp [not_goesOnBare_quote apart]

private theorem goesOnQuoted_doubled : d.GoesOnQuoted (d.quote :: d.quote :: text) ↔ d.GoesOnQuoted text := by
  rw [goesOnQuoted_quote, goesOn_cons]
  simp [apart.delimiter_ne_quote.symm]

end Grammar

section Scanning
variable {c : Char} {rest : List Char} {place next : Place}

private theorem recordText_on (h : d.step place c = .skip next ∨ d.step place c = .take next) :
    d.recordText place (c :: rest) = c :: d.recordText next rest := by
  rcases h with h | h <;> rw [recordText, h]

private theorem recordText_inField (h : d.step place c = d.inField c) : d.recordText place (c :: rest) =
    if c = d.delimiter then c :: d.recordText .fieldStart rest
    else if c = '\n' ∨ c = '\r' then []
    else c :: d.recordText .bare rest := by
  rw [recordText, h, inField]
  split_ifs <;> rfl

private theorem head?_recordText {x : Char} (h : c ≠ x) : (d.recordText place (c :: rest)).head? ≠ some x := by
  rw [recordText]
  split
  case h_4 => exact nofun
  all_goals exact fun hhead => h (Option.some.inj hhead)

private theorem step_inside (inside : place.isInside) (c : Char) :
    (∃ next : Place, next.isInside ∧ (d.step place c = .skip next ∨ d.step place c = .take next)) ∨
      d.step place c = .endField ∨ d.step place c = .endRecord ∧ (c = '\n' ∨ c = '\r') := by
  have hfield : d.inField c = .take .bare ∨ d.inField c = .endField ∨
      d.inField c = .endRecord ∧ (c = '\n' ∨ c = '\r') := by
    unfold inField
    split_ifs with hdelimiter hend
    · exact .inr (.inl rfl)
    · exact .inr (.inr ⟨rfl, hend⟩)
    · exact .inl rfl
  have hon := hfield.imp_left fun h => (⟨.bare, rfl, .inr h⟩ : ∃ next : Place, next.isInside ∧
    (d.inField c = .skip next ∨ d.inField c = .take next))
  cases place with
  | recordStart | comment | afterReturn => contradiction
  | bare => exact hon
  | fieldStart =>
    rw [step, atField]
    split
    · exact .inl ⟨.quoted, rfl, .inl rfl⟩
    · exact hon
  | quoted =>
    rw [step]
    split
    · exact .inl ⟨.afterQuote, rfl, .inl rfl⟩
    · exact .inl ⟨.quoted, rfl, .inr rfl⟩
  | afterQuote =>
    rw [step]
    split
    · exact .inl ⟨.quoted, rfl, .inr rfl⟩
    · exact hon

/-- The text of a record is what a scan reads of it, without the line end behind it. -/
theorem exists_scanFrom_eq (inside : place.isInside) (field : List Char) (fields : List String) (text : List Char) :
    ∃ found rest, d.recordText place text ++ rest = text ∧ EndsRecord rest ∧
      scanFrom d place field fields text = some ⟨found, rest.tail, rest.head? = some '\r'⟩ := by
  induction text generalizing place field fields with
  | nil =>
    refine ⟨(close field fields).reverse, [], rfl, nofun, ?_⟩
    cases place with
    | recordStart | comment | afterReturn => contradiction
    | fieldStart | bare | quoted | afterQuote => rfl
  | cons c text ih =>
    rw [scanFrom_cons]
    rcases step_inside (d := d) inside c with ⟨next, hnext, hstep⟩ | hstep | ⟨hstep, hend⟩
    · rw [recordText_on hstep]
      rcases hstep with hstep | hstep
      · obtain ⟨found, rest, htext, hscan⟩ := ih hnext field fields
        rw [hstep]
        exact ⟨found, rest, congrArg (c :: ·) htext, hscan⟩
      · obtain ⟨found, rest, htext, hscan⟩ := ih hnext (c :: field) fields
        rw [hstep]
        exact ⟨found, rest, congrArg (c :: ·) htext, hscan⟩
    · obtain ⟨found, rest, htext, hscan⟩ := @ih .fieldStart rfl [] (close field fields)
      rw [recordText, hstep]
      exact ⟨found, rest, congrArg (c :: ·) htext, hscan⟩
    · have hends : EndsRecord (c :: text) := fun x hx => Option.some.inj hx ▸ hend
      rw [recordText, hstep]
      exact ⟨(close field fields).reverse, c :: text, rfl, hends, by simp⟩

private theorem goesOn_recordText (h : d.step place c = d.inField c) : d.GoesOn (d.recordText place (c :: rest)) ↔
    (c = d.delimiter ∨ c = '\n' ∨ c = '\r') ∧ d.GoesOnBare (d.recordText place (c :: rest)) := by
  rw [recordText_inField h]
  split_ifs with hdelimiter hend
  · rw [hdelimiter, goesOn_cons, goesOnBare_delimiter]
    simp
  · exact iff_of_true (.inl rfl) ⟨.inr hend, goesOnBare_nil⟩
  · rw [goesOn_cons]
    simp [hdelimiter, hend]

end Scanning

section Checking

private theorem checkBare_inField {c : Char} {rest : List Char} {place : Place} {field : Nat} (hquote : c ≠ d.quote)
    (hstep : d.step place c = d.inField c)
    (hnext : checkBare d (field + 1) true rest = .ok () ↔ d.IsWellQuoted (d.recordText .fieldStart rest))
    (hmore : checkBare d field false rest = .ok () ↔ d.GoesOnBare (d.recordText .bare rest)) (atStart : Bool) :
    checkBare d field atStart (c :: rest) = .ok () ↔ d.GoesOnBare (d.recordText place (c :: rest)) := by
  rw [checkBare, if_neg hquote, recordText_inField hstep]
  split_ifs with hdelimiter hend
  · rw [hnext, hdelimiter, goesOnBare_delimiter]
  · exact iff_of_true rfl goesOnBare_nil
  · rw [hmore, goesOnBare_other hdelimiter hquote]

variable (apart : d.IsApart)
include apart

mutual

private theorem checkBare_start_iff (field : Nat) : ∀ text,
    checkBare d field true text = .ok () ↔ d.IsWellQuoted (d.recordText .fieldStart text)
  | [] => iff_of_true rfl (isWellQuoted_iff.mpr (.inl goesOnBare_nil))
  | c :: rest => by
    by_cases hquote : c = d.quote
    · have hopen : d.step .fieldStart c = .skip .quoted := if_pos hquote
      rw [checkBare, if_pos hquote, if_pos rfl, checkQuoted_iff field rest, recordText_on (.inl hopen), hquote,
        isWellQuoted_quote apart]
    · have hfield : d.step .fieldStart c = d.inField c := if_neg hquote
      rw [checkBare_inField hquote hfield (checkBare_start_iff (field + 1) rest) (checkBare_iff field rest),
        isWellQuoted_bare (head?_recordText hquote)]

private theorem checkBare_iff (field : Nat) : ∀ text,
    checkBare d field false text = .ok () ↔ d.GoesOnBare (d.recordText .bare text)
  | [] => iff_of_true rfl goesOnBare_nil
  | c :: rest => by
    by_cases hquote : c = d.quote
    · have hbare : d.step .bare c = .take .bare := by
        rw [step, hquote, inField, if_neg apart.delimiter_ne_quote.symm,
          if_neg (not_or.mpr ⟨apart.quote_ne_feed, apart.quote_ne_return⟩)]
      rw [checkBare, if_pos hquote, if_neg Bool.false_ne_true, recordText_on (.inr hbare), hquote]
      exact iff_of_false nofun (not_goesOnBare_quote apart)
    · exact checkBare_inField hquote rfl (checkBare_start_iff (field + 1) rest) (checkBare_iff field rest) false

private theorem checkQuoted_iff (field : Nat) : ∀ text,
    checkQuoted d field text = .ok () ↔ d.GoesOnQuoted (d.recordText .quoted text)
  | [] => iff_of_false nofun not_goesOnQuoted_nil
  | [c] => by
    by_cases hquote : c = d.quote
    · have hclose : d.step .quoted c = .skip .afterQuote := if_pos hquote
      rw [checkQuoted, if_pos hquote, recordText_on (.inl hclose), hquote]
      exact iff_of_true rfl ⟨[], [], rfl, .inl rfl⟩
    · have hinside : d.step .quoted c = .take .quoted := if_neg hquote
      rw [checkQuoted, if_neg hquote, recordText_on (.inr hinside), goesOnQuoted_cons hquote]
      exact iff_of_false nofun not_goesOnQuoted_nil
  | c :: next :: rest => by
    by_cases hquote : c = d.quote
    · have hclose : d.step .quoted c = .skip .afterQuote := if_pos hquote
      rw [checkQuoted, if_pos hquote, recordText_on (.inl hclose), hquote]
      by_cases hnext : next = d.quote
      · have hdouble : d.step .afterQuote next = .take .quoted := if_pos hnext
        rw [if_pos hnext, checkQuoted_iff field rest, recordText_on (.inr hdouble), hnext, goesOnQuoted_doubled apart]
      · have hafter : d.step .afterQuote next = d.inField next := if_neg hnext
        rw [if_neg hnext, goesOnQuoted_close (head?_recordText hnext), goesOn_recordText hafter]
        split_ifs with hends
        · rw [and_iff_right hends]
          exact checkBare_inField hnext hafter (checkBare_start_iff (field + 1) rest) (checkBare_iff field rest) false
        · exact iff_of_false nofun fun h => hends h.1
    · have hinside : d.step .quoted c = .take .quoted := if_neg hquote
      rw [checkQuoted, if_neg hquote, checkQuoted_iff field (next :: rest), recordText_on (.inr hinside),
        goesOnQuoted_cons hquote]

end

end Checking

/-- Where a text begins with a record, the check of quotes accepts it if and only if the record is well quoted. -/
theorem checkQuoting_eq_ok_iff (apart : d.IsApart) {raw : List Char}
    (first : ∀ c ∈ raw.head?, c ≠ '\n' ∧ c ≠ '\r' ∧ d.comment ≠ some c) :
    checkQuoting d raw = .ok () ↔ d.IsWellQuoted (d.recordText .fieldStart raw) := by
  have hahead : dropAhead d.comment raw.length raw = raw := by
    cases raw with
    | nil => rfl
    | cons c rest =>
      obtain ⟨hfeed, hreturn, hcomment⟩ := first c rfl
      exact dropAhead_filled _ ⟨hfeed, hreturn⟩ hcomment rest
  rw [checkQuoting, hahead, checkBare_start_iff apart]

/-- Doubled quotes, a delimiter and a line feed in quotes are accepted; a quote in a field without quotes is not. -/
theorem checkQuoting_eq_ok_iff_samples :
    let d : Dialect := ⟨',', '"', some '#'⟩
    let record := "a,\"b,\n\"\"c\"\"\",\"\"".toList
    d.recordText .fieldStart (record ++ "\nx\"y".toList) = record ∧ d.IsWellQuoted record ∧
      ¬ d.IsWellQuoted "x\"y".toList := by
  intro d record
  have apart : d.IsApart := by constructor <;> decide
  have hrecord : d.recordText .fieldStart (record ++ "\nx\"y".toList) = record := by decide
  have hbare : d.recordText .fieldStart "x\"y".toList = "x\"y".toList := by decide
  have hfirst : ∀ c ∈ (record ++ "\nx\"y".toList).head?, c ≠ '\n' ∧ c ≠ '\r' ∧ d.comment ≠ some c := by
    rintro c ⟨⟩
    decide
  have hsecond : ∀ c ∈ "x\"y".toList.head?, c ≠ '\n' ∧ c ≠ '\r' ∧ d.comment ≠ some c := by
    rintro c ⟨⟩
    decide
  have hwell := checkQuoting_eq_ok_iff apart hfirst
  have hill := checkQuoting_eq_ok_iff apart hsecond
  rw [hrecord] at hwell
  rw [hbare] at hill
  exact ⟨hrecord, hwell.mp (by decide), fun h => absurd (hill.mpr h) (by decide)⟩

end Dialect
end Tabulate.Delimited
