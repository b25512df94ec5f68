import Mathlib.Data.List.TakeWhile
import Tabulate.Proofs.Delimited.Quoted

/-! Lines without line ends of their own, joined by some line end, are split into one record for each
line that is not blank. Its fields are those of the line alone. The text read for it begins behind the
record before, so that the check of quotes may see blank lines ahead of the line. -/
namespace Tabulate.Delimited

def Place.isInside : Place → Bool
  | fieldStart | bare | quoted | afterQuote => true
  | recordStart | comment | afterReturn => false

def IsLine (line : List Char) : Prop := ∀ c ∈ line, c ≠ '\n' ∧ c ≠ '\r'

instance : DecidablePred IsLine := List.decidableBAll fun c => c ≠ '\n' ∧ c ≠ '\r'

def splitMark : List (List Char) → List Char × List (List Char)
  | (c :: line) :: lines =>
    if c.toNat = 0xfeff then ([c], line :: lines) else ([], (c :: line) :: lines)
  | lines => ([], lines)

/-- A line that is not blank, with what is read ahead of it for the same record. -/
structure RecordLine where
  mark : List Char
  blanks : Nat
  line : List Char

def recordLines (mark : List Char) (blanks : Nat) : List (List Char) → List RecordLine
  | [] => []
  | [] :: lines => recordLines mark (blanks + 1) lines
  | (c :: line) :: lines => ⟨mark, blanks, c :: line⟩ :: recordLines [] 0 lines

namespace Dialect

/-- Neither the delimiter nor the quote is part of a line end, and there are no comments. -/
structure IsLined (d : Dialect) : Prop where
  delimiter_ne_feed : d.delimiter ≠ '\n'
  delimiter_ne_return : d.delimiter ≠ '\r'
  quote_ne_feed : d.quote ≠ '\n'
  quote_ne_return : d.quote ≠ '\r'
  noComment : d.comment = none

namespace IsLined
variable {d : Dialect} {c : Char}

private theorem ne_delimiter (lined : d.IsLined) (ends : c = '\n' ∨ c = '\r') : c ≠ d.delimiter := by
  rintro rfl
  exact ends.elim lined.delimiter_ne_feed lined.delimiter_ne_return

private theorem ne_quote (lined : d.IsLined) (ends : c = '\n' ∨ c = '\r') : c ≠ d.quote := by
  rintro rfl
  exact ends.elim lined.quote_ne_feed lined.quote_ne_return

end IsLined

def next (d : Dialect) (place : Place) (c : Char) : Place :=
  match d.step place c with
  | .skip next | .take next => next
  | .endField => .fieldStart
  | .endRecord => .recordStart

def endOf (d : Dialect) (line : List Char) : Place := line.foldl d.next .recordStart

def fieldsOf (d : Dialect) (line : List Char) : List String :=
  (scan? d false line).elim [] (·.fields)

def content (d : Dialect) (r : Record) : List String × Except QuotingFault Unit :=
  (r.fields, checkQuoting d r.raw)

end Dialect

namespace RecordLine

/-- What the check of quotes finds. It ends in the blank lines ahead if they end in carriage returns
alone, or if a byte order mark comes before them. -/
def verdict (d : Dialect) (lineEnd : LineEnd) (l : RecordLine) : Except QuotingFault Unit :=
  if 0 < l.blanks ∧ (lineEnd = .carriageReturn ∨ l.mark ≠ []) then .ok ()
  else checkBare d 0 true (l.mark ++ l.line)

def content (d : Dialect) (lineEnd : LineEnd) (l : RecordLine) :
    List String × Except QuotingFault Unit :=
  (d.fieldsOf l.line, l.verdict d lineEnd)

end RecordLine

namespace Dialect
variable {d : Dialect}

section Scanning

private theorem isInside_next {place : Place} (inside : place.isInside) {c : Char}
    (apart : c ≠ '\n' ∧ c ≠ '\r') : (d.next place c).isInside ∧ d.step place c ≠ .endRecord := by
  cases place <;> simp [Place.isInside, next, step, atField, inField, apart] at inside ⊢ <;>
    split_ifs <;> simp

private theorem step_lineEnd (lined : d.IsLined) {place : Place} (inside : place.isInside)
    (notQuoted : place ≠ .quoted) {c : Char} (ends : c = '\n' ∨ c = '\r') :
    d.step place c = .endRecord := by
  have hfield : d.inField c = .endRecord := by simp [inField, lined.ne_delimiter ends, ends]
  have hquote := lined.ne_quote ends
  cases place <;> simp_all [Place.isInside, step, atField]

private theorem scanFrom_line (lined : d.IsLined) {line rest : List Char} (isLine : IsLine line)
    (ends : EndsRecord rest) {place : Place} (inside : place.isInside)
    (closed : line.foldl d.next place ≠ .quoted ∨ rest = []) (field : List Char)
    (fields : List String) :
    ∃ found, scanFrom d place field fields line = some ⟨found, [], false⟩ ∧
      scanFrom d place field fields (line ++ rest) =
        some ⟨found, rest.tail, rest.head? = some '\r'⟩ := by
  induction line generalizing place field fields with
  | nil =>
    have hend : scanFrom d place field fields [] = some ⟨(close field fields).reverse, [], false⟩ := by
      cases place with
      | fieldStart | bare | quoted | afterQuote => rfl
      | recordStart | comment | afterReturn => contradiction
    refine ⟨_, hend, ?_⟩
    cases rest with
    | nil => simpa using hend
    | cons c rest =>
      have notQuoted : place ≠ .quoted := closed.resolve_right (by simp)
      simp [scanFrom_cons, step_lineEnd lined inside notQuoted (ends c rfl)]
  | cons c line ih =>
    obtain ⟨apart, isLine⟩ := List.forall_mem_cons.mp isLine
    obtain ⟨hinside, hgoes⟩ := isInside_next (d := d) inside apart
    rw [List.foldl_cons] at closed
    rw [List.cons_append, scanFrom_cons, scanFrom_cons]
    rw [next] at hinside closed
    cases hstep : d.step place c with
    | skip next =>
      simp only [hstep] at hinside closed ⊢
      exact ih isLine hinside closed field fields
    | take next =>
      simp only [hstep] at hinside closed ⊢
      exact ih isLine hinside closed (c :: field) fields
    | endField =>
      simp only [hstep] at hinside closed ⊢
      exact ih isLine hinside closed [] (close field fields)
    | endRecord => exact absurd hstep hgoes

private theorem step_blank (d : Dialect) (after : Bool) {c : Char} (blank : c = '\n' ∨ c = '\r') :
    d.step (if after then .afterReturn else .recordStart) c = .skip .recordStart := by
  cases after <;> rcases blank with rfl | rfl <;> simp [step, atRecord]

private theorem step_first (lined : d.IsLined) (after : Bool) {c : Char}
    (apart : c ≠ '\n' ∧ c ≠ '\r') :
    d.step (if after then .afterReturn else .recordStart) c = d.step .fieldStart c := by
  cases after <;> simp [step, atRecord, apart, lined.noComment]

private theorem scan?_blank (after : Bool) {blanks : List Char}
    (blank : ∀ c ∈ blanks, c = '\n' ∨ c = '\r') : scan? d after blanks = none := by
  induction blanks generalizing after with
  | nil => cases after <;> rfl
  | cons c blanks ih =>
    obtain ⟨hc, hblanks⟩ := List.forall_mem_cons.mp blank
    simp only [scan?, scanFrom_cons, step_blank d after hc]
    exact ih false hblanks

private theorem scan?_blank_append (lined : d.IsLined) (after : Bool) (blanks : List Char)
    (blank : ∀ c ∈ blanks, c = '\n' ∨ c = '\r') {c : Char} (apart : c ≠ '\n' ∧ c ≠ '\r')
    (rest : List Char) :
    scan? d after (blanks ++ c :: rest) = scanFrom d .fieldStart [] [] (c :: rest) := by
  induction blanks generalizing after with
  | nil => simp only [List.nil_append, scan?, scanFrom_cons, step_first lined after apart]
  | cons x blanks ih =>
    obtain ⟨hx, hblanks⟩ := List.forall_mem_cons.mp blank
    simp only [List.cons_append, scan?, scanFrom_cons, step_blank d after hx]
    exact ih false hblanks

private theorem scan?_line (lined : d.IsLined) (after : Bool) {blanks : List Char}
    (blank : ∀ c ∈ blanks, c = '\n' ∨ c = '\r') {c : Char} {line : List Char}
    (isLine : IsLine (c :: line)) {rest : List Char} (ends : EndsRecord rest)
    (closed : d.endOf (c :: line) ≠ .quoted ∨ rest = []) :
    scan? d after (blanks ++ (c :: line ++ rest)) =
      some ⟨d.fieldsOf (c :: line), rest.tail, rest.head? = some '\r'⟩ := by
  have apart := isLine c List.mem_cons_self
  have hplace : d.endOf (c :: line) = (c :: line).foldl d.next .fieldStart := by
    have hfirst : d.next .recordStart c = d.next .fieldStart c := by
      rw [next, next, ← step_first lined false apart]
      rfl
    rw [endOf, List.foldl_cons, List.foldl_cons, hfirst]
  obtain ⟨found, halone, hbehind⟩ := scanFrom_line lined isLine ends rfl (hplace ▸ closed) [] []
  have hfields : d.fieldsOf (c :: line) = found := by
    have hscan := scan?_blank_append lined false [] (by simp) apart line
    rw [fieldsOf, ← List.nil_append (c :: line), hscan, halone]
    rfl
  rw [hfields, List.cons_append, scan?_blank_append lined after blanks blank apart, ← List.cons_append,
    hbehind]

end Scanning

section Checking

private theorem checkBare_lineEnd (lined : d.IsLined) {c : Char} (ends : c = '\n' ∨ c = '\r')
    (field : Nat) (atStart : Bool) (rest : List Char) :
    checkBare d field atStart (c :: rest) = .ok () := by
  simp [checkBare, lined.ne_quote ends, lined.ne_delimiter ends, ends]

mutual

private theorem checkBare_concat (lined : d.IsLined) {c : Char} (ends : c = '\n' ∨ c = '\r')
    (field : Nat) (atStart : Bool) :
    ∀ text, checkBare d field atStart (text ++ [c]) = checkBare d field atStart text
  | [] => checkBare_lineEnd lined ends field atStart []
  | x :: text => by
    simp only [List.cons_append, checkBare, checkQuoted_concat lined ends field text,
      checkBare_concat lined ends (field + 1) true text, checkBare_concat lined ends field false text]

private theorem checkQuoted_concat (lined : d.IsLined) {c : Char} (ends : c = '\n' ∨ c = '\r')
    (field : Nat) : ∀ text, checkQuoted d field (text ++ [c]) = checkQuoted d field text
  | [] => by simp [checkQuoted, lined.ne_quote ends]
  | [x] => by simp [checkQuoted, lined.ne_quote ends, ends, checkBare_lineEnd lined ends]
  | x :: y :: text => by
    have htail : checkQuoted d field (y :: (text ++ [c])) = checkQuoted d field (y :: text) :=
      checkQuoted_concat lined ends field (y :: text)
    have hbare : checkBare d field false (y :: (text ++ [c])) = checkBare d field false (y :: text) :=
      checkBare_concat lined ends field false (y :: text)
    simp only [List.cons_append, checkQuoted, htail, hbare, checkQuoted_concat lined ends field text]

end

private theorem dropAhead_blank {blanks : List (List Char)}
    (blank : ∀ line ∈ blanks, line = ['\n'] ∨ line = ['\r', '\n']) {fuel : Nat}
    (enough : blanks.flatten.length ≤ fuel) {c : Char} (apart : c ≠ '\n' ∧ c ≠ '\r')
    (rest : List Char) : dropAhead none fuel (blanks.flatten ++ c :: rest) = c :: rest := by
  induction blanks generalizing fuel with
  | nil => exact dropAhead_filled fuel apart (Option.some_ne_none c).symm rest
  | cons line blanks ih =>
    obtain ⟨hline, blank⟩ := List.forall_mem_cons.mp blank
    have hpos : 0 < line.length := by rcases hline with rfl | rfl <;> decide
    rw [List.flatten_cons, List.length_append] at enough
    obtain ⟨fuel, rfl⟩ : ∃ n, fuel = n + 1 := ⟨fuel - 1, by omega⟩
    have hrest : dropAhead none fuel (blanks.flatten ++ c :: rest) = c :: rest := ih blank (by omega)
    rcases hline with rfl | rfl <;> simpa [dropAhead] using hrest

private theorem dropAhead_noFeed (fuel : Nat) {raw : List Char} (noFeed : ∀ c ∈ raw, c ≠ '\n') :
    dropAhead none fuel raw = raw := by
  cases fuel with
  | zero => rfl
  | succ fuel =>
    have hnone : raw.dropWhile (· ≠ '\n') = [] :=
      List.dropWhile_eq_nil_iff.mpr (by simpa using noFeed)
    rw [dropAhead, hnone]

/-- What may stand ahead of the blank lines before a record: a byte order mark, or the rest of the
line end of the line before. -/
private def IsAhead (d : Dialect) (lineEnd : LineEnd) (mark lead : List Char) : Prop :=
  mark = [] ∧ (lead = [] ∨ lead = lineEnd.text.tail) ∨
    lead = [] ∧ ∃ c, mark = [c] ∧ d.atField c = .take .bare

private theorem checkBare_plain {c : Char} (plain : d.atField c = .take .bare) (field : Nat)
    (atStart : Bool) (rest : List Char) :
    checkBare d field atStart (c :: rest) = checkBare d field false rest := by
  simp only [atField, inField] at plain
  split_ifs at plain with hquote hdelimiter hend
  simp [checkBare, hquote, hdelimiter, hend]

private theorem apart_of_plain {c : Char} (plain : d.atField c = .take .bare) :
    c ≠ '\n' ∧ c ≠ '\r' := by
  simp only [atField, inField] at plain
  split_ifs at plain with hquote hdelimiter hend
  exact not_or.mp hend

variable {lineEnd : LineEnd} {c : Char} {line after : List Char}

private theorem checkBare_line (lined : d.IsLined)
    (atEnd : after = [] ∨ after = lineEnd.text.take 1) (field : Nat) (atStart : Bool)
    (line : List Char) :
    checkBare d field atStart (line ++ after) = checkBare d field atStart line := by
  rcases atEnd with rfl | rfl
  · rw [List.append_nil]
  · cases lineEnd with
    | feed => exact checkBare_concat lined (.inl rfl) field atStart line
    | returnFeed | carriageReturn => exact checkBare_concat lined (.inr rfl) field atStart line

private theorem checkQuoting_blank (lined : d.IsLined) {blanks : List (List Char)}
    (blank : ∀ line ∈ blanks, line = ['\n'] ∨ line = ['\r', '\n']) (apart : c ≠ '\n' ∧ c ≠ '\r')
    (rest : List Char) :
    checkQuoting d (blanks.flatten ++ c :: rest) = checkBare d 0 true (c :: rest) := by
  rw [checkQuoting, lined.noComment, dropAhead_blank blank (by simp) apart]

private theorem checkQuoting_return (lined : d.IsLined) (blanks : Nat) {rest : List Char}
    (noFeed : ∀ c ∈ rest, c ≠ '\n') :
    checkQuoting d (List.replicate blanks '\r' ++ rest) =
      if 0 < blanks then .ok () else checkBare d 0 true rest := by
  -- of blank lines that end in carriage returns the first is all that is seen
  have hraw : ∀ c ∈ List.replicate blanks '\r' ++ rest, c ≠ '\n' := by
    intro c hc
    rcases List.mem_append.mp hc with hc | hc
    · exact (List.mem_replicate.mp hc).2 ▸ by decide
    · exact noFeed c hc
  rw [checkQuoting, lined.noComment, dropAhead_noFeed _ hraw]
  cases blanks with
  | zero => rfl
  | succ blanks => exact checkBare_lineEnd lined (.inr rfl) 0 true _

private theorem checkQuoting_mark (lineEnd : LineEnd) (lined : d.IsLined)
    (plain : d.atField c = .take .bare) (blanks : Nat) (rest : List Char) :
    checkQuoting d (c :: ((List.replicate blanks lineEnd.text).flatten ++ rest)) =
      if 0 < blanks then .ok () else checkBare d 0 true (c :: rest) := by
  rw [checkQuoting, lined.noComment, dropAhead_filled _ (apart_of_plain plain) (Option.some_ne_none c).symm]
  cases blanks with
  | zero => rfl
  | succ blanks =>
    rw [checkBare_plain plain]
    cases lineEnd with
    | feed => exact checkBare_lineEnd lined (.inl rfl) 0 false _
    | returnFeed | carriageReturn => exact checkBare_lineEnd lined (.inr rfl) 0 false _

private theorem checkQuoting_line (lined : d.IsLined) {mark lead : List Char}
    (ahead : IsAhead d lineEnd mark lead) (blanks : Nat) (isLine : IsLine (c :: line))
    (atEnd : after = [] ∨ after = lineEnd.text.take 1) :
    checkQuoting d
        (mark ++ (lead ++ (List.replicate blanks lineEnd.text).flatten ++ (c :: line ++ after))) =
      RecordLine.verdict d lineEnd ⟨mark, blanks, c :: line⟩ := by
  have hline (atStart : Bool) := checkBare_line lined atEnd 0 atStart (c :: line)
  rcases ahead with ⟨rfl, hlead⟩ | ⟨rfl, m, rfl, plain⟩
  · have apart := isLine c List.mem_cons_self
    have hblank (pieces : List (List Char))
        (blank : ∀ piece ∈ pieces, piece = ['\n'] ∨ piece = ['\r', '\n']) :=
      (checkQuoting_blank lined blank apart (line ++ after)).trans (hline true)
    cases lineEnd with
    | feed =>
      obtain rfl : lead = [] := hlead.elim id id
      simpa [RecordLine.verdict, LineEnd.text] using
        hblank (.replicate blanks ['\n']) (by simp)
    | returnFeed =>
      have hverdict : RecordLine.verdict d .returnFeed ⟨[], blanks, c :: line⟩ =
          checkBare d 0 true (c :: line) := by simp [RecordLine.verdict]
      rcases hlead with rfl | rfl
      · exact (hblank (.replicate blanks ['\r', '\n']) (by simp)).trans hverdict.symm
      · exact (hblank (['\n'] :: .replicate blanks ['\r', '\n']) (by simp)).trans hverdict.symm
    | carriageReturn =>
      obtain rfl : lead = [] := hlead.elim id id
      have noFeed : ∀ x ∈ c :: line ++ after, x ≠ '\n' := by
        intro x hx
        rcases List.mem_append.mp hx with hx | hx
        · exact (isLine x hx).1
        · rcases atEnd with rfl | rfl
          · cases hx
          · exact (List.mem_singleton.mp hx).symm ▸ by decide
      have hcheck := checkQuoting_return lined blanks noFeed
      rw [hline true] at hcheck
      simpa [RecordLine.verdict, LineEnd.text] using hcheck
  · have hcheck := checkQuoting_mark lineEnd lined plain blanks (c :: line ++ after)
    have hmarked : checkBare d 0 true (m :: (c :: line ++ after)) =
        checkBare d 0 true (m :: c :: line) :=
      checkBare_line lined atEnd 0 true (m :: c :: line)
    rw [hmarked] at hcheck
    simpa [RecordLine.verdict] using hcheck

end Checking

section Splitting
variable (lineEnd : LineEnd)

private def following (lines : List (List Char)) : List Char := lines.flatMap (lineEnd.text ++ ·)

private theorem intercalate_cons (line : List Char) (lines : List (List Char)) :
    lineEnd.text.intercalate (line :: lines) = line ++ following lineEnd lines := by
  induction lines generalizing line with
  | nil => simp [following]
  | cons next lines ih =>
    have hnext : lineEnd.text.intercalate (line :: next :: lines) =
        line ++ (lineEnd.text ++ lineEnd.text.intercalate (next :: lines)) := by
      simp [List.intercalate]
    rw [hnext, ih next, following, following, List.flatMap_cons, List.append_assoc]

private theorem following_cons (line : List Char) (lines : List (List Char)) :
    following lineEnd (line :: lines) = lineEnd.text ++ lineEnd.text.intercalate (line :: lines) := by
  rw [intercalate_cons, following, List.flatMap_cons, List.append_assoc]
  rfl

private theorem take_following (lines : List (List Char)) :
    (following lineEnd lines).take 1 = [] ∨
      (following lineEnd lines).take 1 = lineEnd.text.take 1 := by
  cases lines with
  | nil => exact .inl rfl
  | cons line lines => cases lineEnd <;> exact .inr rfl

private theorem tail_following (line : List Char) (lines : List (List Char)) :
    (following lineEnd (line :: lines)).tail =
      lineEnd.text.tail ++ [] ++ lineEnd.text.intercalate (line :: lines) := by
  rw [following_cons]
  cases lineEnd <;> rfl

private theorem endsRecord_following (lines : List (List Char)) :
    EndsRecord (following lineEnd lines) := by
  cases lines with
  | nil => simp [EndsRecord, following]
  | cons line lines => cases lineEnd <;> simp [EndsRecord, following, LineEnd.text]

private theorem isEnd_blanks {mark lead : List Char} (h : IsAhead d lineEnd mark lead)
    (blanks : Nat) :
    ∀ c ∈ lead ++ (List.replicate blanks lineEnd.text).flatten, c = '\n' ∨ c = '\r' := by
  have htext : ∀ c ∈ lineEnd.text, c = '\n' ∨ c = '\r' := by cases lineEnd <;> simp [LineEnd.text]
  intro c hc
  rcases List.mem_append.mp hc with hc | hc
  · rcases h with ⟨-, rfl | rfl⟩ | ⟨rfl, -⟩
    · cases hc
    · exact htext c (List.mem_of_mem_tail hc)
    · cases hc
  · simp only [List.mem_flatten, List.mem_replicate] at hc
    obtain ⟨piece, ⟨-, rfl⟩, hc⟩ := hc
    exact htext c hc

private theorem recordsFrom_line (after : Bool) (lined : d.IsLined) {mark lead : List Char}
    (ahead : IsAhead d lineEnd mark lead) (blanks : Nat) {c : Char} {line : List Char}
    (isLine : IsLine (c :: line)) {lines : List (List Char)}
    (closed : d.endOf (c :: line) ≠ .quoted ∨ lines = []) (fuel number : Nat) :
    ∃ r next, d.content r = RecordLine.content d lineEnd ⟨mark, blanks, c :: line⟩ ∧
      recordsFrom d (fuel + 1) number after mark
          (lead ++ (List.replicate blanks lineEnd.text).flatten ++
            (c :: line ++ following lineEnd lines)) =
        r :: recordsFrom d fuel next ((following lineEnd lines).head? = some '\r') []
          (following lineEnd lines).tail := by
  have hscan := scan?_line lined after (isEnd_blanks lineEnd ahead blanks) isLine
    (endsRecord_following lineEnd lines) (closed.imp_right fun h => by rw [h]; rfl)
  have hread := take_behind (lead ++ (List.replicate blanks lineEnd.text).flatten ++ (c :: line))
    (following lineEnd lines)
  have hcheck := checkQuoting_line lined ahead blanks isLine (take_following lineEnd lines)
  rw [recordsFrom, hscan]
  refine ⟨_, _, ?_, rfl⟩
  dsimp only
  rw [← List.append_assoc, hread, content, List.append_assoc _ (c :: line), hcheck]
  rfl

private theorem recordsFrom_lines (after : Bool) (lined : d.IsLined) {lines : List (List Char)}
    (areLines : ∀ line ∈ lines, IsLine line)
    (closed : ∀ line ∈ lines.dropLast, d.endOf line ≠ .quoted) {mark lead : List Char}
    (ahead : IsAhead d lineEnd mark lead) (blanks : Nat) {fuel : Nat} (enough : lines.length ≤ fuel)
    (number : Nat) :
    (recordsFrom d fuel number after mark
        (lead ++ (List.replicate blanks lineEnd.text).flatten ++ lineEnd.text.intercalate lines)).map
      d.content = (recordLines mark blanks lines).map (RecordLine.content d lineEnd) := by
  induction lines generalizing mark lead after blanks fuel number with
  | nil =>
    cases fuel with
    | zero => rfl
    | succ fuel =>
      have hnone : scan? d after (lead ++ (List.replicate blanks lineEnd.text).flatten ++
          lineEnd.text.intercalate []) = none := by
        simpa using scan?_blank after (isEnd_blanks lineEnd ahead blanks)
      rw [recordsFrom, hnone]
      rfl
  | cons line lines ih =>
    obtain ⟨fuel, rfl⟩ := Nat.exists_eq_succ_of_ne_zero (Nat.ne_of_gt (Nat.zero_lt_of_lt enough))
    have hlines : ∀ line ∈ lines, IsLine line := fun l hl => areLines l (List.mem_cons_of_mem _ hl)
    have hclosed : ∀ line ∈ lines.dropLast, d.endOf line ≠ .quoted := by
      intro l hl
      cases lines with
      | nil => cases hl
      | cons next lines => exact closed l (List.mem_cons_of_mem _ hl)
    cases line with
    | nil =>
      -- A blank line at the end of the text has no line end behind it.
      cases lines with
      | nil => simpa [recordLines] using ih after hlines hclosed ahead blanks (Nat.zero_le _) number
      | cons next lines =>
        have enough : (next :: lines).length ≤ fuel + 1 := Nat.le_of_succ_le enough
        have hrun := ih after hlines hclosed ahead (blanks + 1) enough number
        rw [List.replicate_succ', List.flatten_concat] at hrun
        rw [intercalate_cons, following_cons, recordLines]
        simpa using hrun
    | cons c line =>
      have hplace : d.endOf (c :: line) ≠ .quoted ∨ lines = [] := by
        cases lines with
        | nil => exact .inr rfl
        | cons next lines => exact .inl (closed _ List.mem_cons_self)
      obtain ⟨r, next, hfirst, hrun⟩ := recordsFrom_line lineEnd after lined ahead blanks
        (areLines _ List.mem_cons_self) hplace fuel number
      rw [intercalate_cons, hrun, List.map_cons, hfirst, recordLines, List.map_cons]
      congr 1
      cases lines with
      | nil => exact ih _ hlines hclosed (.inl ⟨rfl, .inl rfl⟩) 0 (Nat.zero_le _) next
      | cons nextLine lines =>
        rw [tail_following]
        exact ih _ hlines hclosed (.inl ⟨rfl, .inr rfl⟩) 0 (Nat.le_of_succ_le_succ enough) next

private theorem length_intercalate (lines : List (List Char)) :
    lines.length ≤ (lineEnd.text.intercalate lines).length + 1 := by
  have hpos : 0 < lineEnd.text.length := by cases lineEnd <;> decide
  have hfollowing (lines : List (List Char)) : lines.length ≤ (following lineEnd lines).length := by
    induction lines with
    | nil => exact Nat.zero_le _
    | cons line lines ih =>
      simp only [following, List.flatMap_cons, List.length_append, List.length_cons] at ih ⊢
      omega
  cases lines with
  | nil => exact Nat.zero_le _
  | cons line lines =>
    have hlines := hfollowing lines
    rw [intercalate_cons, List.length_append, List.length_cons]
    omega

private theorem isLine_splitMark {lines : List (List Char)} (areLines : ∀ line ∈ lines, IsLine line) :
    ∀ line ∈ (splitMark lines).2, IsLine line := by
  unfold splitMark
  split
  · split_ifs
    · obtain ⟨hline, hlines⟩ := List.forall_mem_cons.mp areLines
      exact List.forall_mem_cons.mpr ⟨fun c hc => hline c (List.mem_cons_of_mem _ hc), hlines⟩
    · exact areLines
  · exact areLines

private theorem records_splitMark (lines : List (List Char)) :
    records d (lineEnd.text.intercalate lines) =
      recordsFrom d ((lineEnd.text.intercalate (splitMark lines).2).length + 1) 1 false
        (splitMark lines).1 (lineEnd.text.intercalate (splitMark lines).2) := by
  match lines with
  | [] => rfl
  | [[]] => rfl
  | [] :: next :: lines =>
    have hsplit : splitMark ([] :: next :: lines) = ([], [] :: next :: lines) := rfl
    rw [hsplit, intercalate_cons, following_cons]
    cases lineEnd <;> rfl
  | (c :: line) :: lines =>
    rw [intercalate_cons, splitMark, List.cons_append, records]
    split_ifs <;> simp [intercalate_cons]

/-- The records of lines have the fields of the lines that are not blank, and their verdicts. -/
theorem records_lines (lined : d.IsLined)
    (plain : ∀ c : Char, c.toNat = 0xfeff → d.atField c = .take .bare) {lines : List (List Char)}
    (areLines : ∀ line ∈ lines, IsLine line)
    (closed : ∀ line ∈ (splitMark lines).2.dropLast, d.endOf line ≠ .quoted) :
    (records d (lineEnd.text.intercalate lines)).map d.content =
      (recordLines (splitMark lines).1 0 (splitMark lines).2).map (RecordLine.content d lineEnd) := by
  have ahead : IsAhead d lineEnd (splitMark lines).1 [] := by
    unfold splitMark
    split
    · split_ifs with hc
      · exact .inr ⟨rfl, _, rfl, plain _ hc⟩
      · exact .inl ⟨rfl, .inl rfl⟩
    · exact .inl ⟨rfl, .inl rfl⟩
  rw [records_splitMark]
  exact recordsFrom_lines lineEnd false lined (isLine_splitMark areLines) closed ahead 0
    (length_intercalate lineEnd _) 1

end Splitting
end Dialect

end Tabulate.Delimited
