import Mathlib.Data.List.Forall2
import Tabulate.Proofs.Delimited.Accounting
import Tabulate.Proofs.Value.Fields

/-! Text with all fields in quotes is read back as the fields it was written from, whichever line
end is used. -/
namespace Tabulate.Delimited

inductive LineEnd
  | feed
  | returnFeed
  | carriageReturn
deriving DecidableEq

def LineEnd.text : LineEnd → List Char
  | feed => ['\n']
  | returnFeed => ['\r', '\n']
  | carriageReturn => ['\r']

namespace Dialect

def doubled (d : Dialect) (text : List Char) : List Char :=
  text.flatMap fun c => if c = d.quote then [c, c] else [c]

def quotedField (d : Dialect) (text : String) : List Char :=
  d.quote :: (d.doubled text.toList ++ [d.quote])

def quotedRecord (d : Dialect) (fields : List String) : List Char :=
  [d.delimiter].intercalate (fields.map d.quotedField)

/-- Records in order with a line end between them, and after the last one if it is closed. -/
def quotedText (d : Dialect) (lineEnd : LineEnd) (closed : Bool) (records : List (List String)) :
    List Char :=
  lineEnd.text.intercalate (records.map d.quotedRecord) ++ if closed then lineEnd.text else []

/-- Delimiter and quote are ASCII characters apart from each other and from line ends, and there
are no comments. -/
structure IsPlain (d : Dialect) : Prop where
  delimiter_ascii : d.delimiter.toNat < 128
  quote_ascii : d.quote.toNat < 128
  delimiter_ne_quote : d.delimiter ≠ d.quote
  quote_ne_feed : d.quote ≠ '\n'
  quote_ne_return : d.quote ≠ '\r'
  delimiter_ne_feed : d.delimiter ≠ '\n'
  delimiter_ne_return : d.delimiter ≠ '\r'
  noComment : d.comment = none

def EndsRecord (rest : List Char) : Prop := ∀ c ∈ rest.head?, c = '\n' ∨ c = '\r'

variable {d : Dialect}

theorem doubled_cons (c : Char) (text : List Char) :
    d.doubled (c :: text) = (if c = d.quote then [c, c] else [c]) ++ d.doubled text := rfl

private theorem quotedRecord_singleton (field : String) : d.quotedRecord [field] = d.quotedField field := by
  simp [quotedRecord]

private theorem quotedRecord_cons_cons (field next : String) (fields : List String) :
    d.quotedRecord (field :: next :: fields) =
      d.quotedField field ++ d.delimiter :: d.quotedRecord (next :: fields) := by
  simp [quotedRecord, List.intercalate]

section Scanning

theorem scanFrom_cons (place : Place) (field : List Char) (fields : List String) (c : Char)
    (rest : List Char) :
    scanFrom d place field fields (c :: rest) =
      match d.step place c with
      | .skip next => scanFrom d next field fields rest
      | .take next => scanFrom d next (c :: field) fields rest
      | .endField => scanFrom d .fieldStart [] (close field fields) rest
      | .endRecord => some ⟨(close field fields).reverse, rest, c = '\r'⟩ := by
  cases place <;> rfl

private theorem step_quote (plain : d.IsPlain) :
    d.step .recordStart d.quote = .skip .quoted ∧ d.step .fieldStart d.quote = .skip .quoted ∧
      d.step .afterReturn d.quote = .skip .quoted := by
  simp [step, atRecord, atField, plain.quote_ne_feed, plain.quote_ne_return, plain.noComment]

private theorem scanFrom_doubled (text field : List Char) (fields : List String) (rest : List Char) :
    scanFrom d .quoted field fields (d.doubled text ++ d.quote :: rest) =
      scanFrom d .afterQuote (text.reverse ++ field) fields rest := by
  induction text generalizing field with
  | nil => simp [doubled, scanFrom_cons, step]
  | cons c text ih =>
    rw [doubled_cons, List.append_assoc]
    by_cases h : c = d.quote
    · simp [h, scanFrom_cons, step, ih]
    · simp [h, scanFrom_cons, step, ih]

private theorem scanFrom_quotedField {place : Place} (opens : d.step place d.quote = .skip .quoted)
    (text : String) (fields : List String) (rest : List Char) :
    scanFrom d place [] fields (d.quotedField text ++ rest) =
      scanFrom d .afterQuote text.toList.reverse fields rest := by
  have hcons : scanFrom d place [] fields (d.quotedField text ++ rest) =
      scanFrom d .quoted [] fields (d.doubled text.toList ++ d.quote :: rest) := by
    rw [quotedField, List.cons_append, List.append_assoc, List.singleton_append, scanFrom_cons, opens]
  rw [hcons, scanFrom_doubled, List.append_nil]

private theorem close_reverse (text : String) (fields : List String) :
    close text.toList.reverse fields = text :: fields := by
  simp [close]

private theorem scanFrom_delimiter (plain : d.IsPlain) (text : String) (fields : List String)
    (rest : List Char) :
    scanFrom d .afterQuote text.toList.reverse fields (d.delimiter :: rest) =
      scanFrom d .fieldStart [] (text :: fields) rest := by
  simp [scanFrom_cons, step, inField, plain.delimiter_ne_quote, close_reverse]

private theorem scanFrom_end (plain : d.IsPlain) (text : String) (fields : List String)
    {rest : List Char} (ends : EndsRecord rest) :
    scanFrom d .afterQuote text.toList.reverse fields rest =
      some ⟨(text :: fields).reverse, rest.tail, rest.head? = some '\r'⟩ := by
  cases rest with
  | nil =>
    rw [← close_reverse text fields]
    rfl
  | cons c rest =>
    rcases ends c rfl with rfl | rfl
    · simp [scanFrom_cons, step, inField, plain.quote_ne_feed.symm, plain.delimiter_ne_feed.symm,
        close_reverse]
    · simp [scanFrom_cons, step, inField, plain.quote_ne_return.symm, plain.delimiter_ne_return.symm,
        close_reverse]

private theorem scanFrom_quotedRecord (plain : d.IsPlain) {place : Place}
    (opens : d.step place d.quote = .skip .quoted) {fields : List String} (nonempty : fields ≠ [])
    (before : List String) {rest : List Char} (ends : EndsRecord rest) :
    scanFrom d place [] before (d.quotedRecord fields ++ rest) =
      some ⟨before.reverse ++ fields, rest.tail, rest.head? = some '\r'⟩ := by
  induction fields generalizing place before with
  | nil => exact absurd rfl nonempty
  | cons field fields ih =>
    cases fields with
    | nil =>
      rw [quotedRecord_singleton, scanFrom_quotedField opens, scanFrom_end plain _ _ ends,
        List.reverse_cons]
    | cons next fields =>
      rw [quotedRecord_cons_cons, List.append_assoc, scanFrom_quotedField opens, List.cons_append,
        scanFrom_delimiter plain, ih (step_quote plain).2.1 (by simp), List.reverse_cons,
        List.append_assoc, List.singleton_append]

end Scanning

section Checking

private theorem checkQuoted_doubled (text : List Char) (field : Nat) {rest : List Char}
    (follows : ∀ c ∈ rest.head?, c ≠ d.quote ∧ (c = d.delimiter ∨ c = '\n' ∨ c = '\r')) :
    checkQuoted d field (d.doubled text ++ d.quote :: rest) = checkBare d field false rest := by
  induction text with
  | nil =>
    cases rest with
    | nil => simp [doubled, checkQuoted, checkBare]
    | cons c rest =>
      obtain ⟨notQuote, ends⟩ := follows c rfl
      simp [doubled, checkQuoted, notQuote, ends]
  | cons c text ih =>
    rw [doubled_cons, List.append_assoc]
    by_cases h : c = d.quote
    · simp [h, checkQuoted, ih]
    · obtain ⟨next, more, hmore⟩ : ∃ next more, d.doubled text ++ d.quote :: rest = next :: more :=
        List.exists_cons_of_ne_nil (by simp)
      rw [hmore] at ih
      rw [hmore, if_neg h, List.singleton_append, checkQuoted, if_neg h, ih]

private theorem checkBare_quotedField (text : String) (field : Nat) {rest : List Char}
    (follows : ∀ c ∈ rest.head?, c ≠ d.quote ∧ (c = d.delimiter ∨ c = '\n' ∨ c = '\r')) :
    checkBare d field true (d.quotedField text ++ rest) = checkBare d field false rest := by
  rw [quotedField, List.cons_append, List.append_assoc, List.singleton_append, checkBare]
  simp [checkQuoted_doubled text.toList field follows]

private theorem checkBare_quotedRecord (plain : d.IsPlain) {fields : List String}
    (nonempty : fields ≠ []) (index : Nat) {rest : List Char} (ends : EndsRecord rest) :
    checkBare d index true (d.quotedRecord fields ++ rest) = .ok () := by
  induction fields generalizing index with
  | nil => exact absurd rfl nonempty
  | cons field fields ih =>
    cases fields with
    | nil =>
      rw [quotedRecord_singleton, checkBare_quotedField]
      · cases rest with
        | nil => rfl
        | cons c rest =>
          rcases ends c rfl with rfl | rfl
          · simp [checkBare, plain.quote_ne_feed.symm, plain.delimiter_ne_feed.symm]
          · simp [checkBare, plain.quote_ne_return.symm, plain.delimiter_ne_return.symm]
      · intro c hc
        rcases ends c hc with rfl | rfl
        · exact ⟨plain.quote_ne_feed.symm, .inr (.inl rfl)⟩
        · exact ⟨plain.quote_ne_return.symm, .inr (.inr rfl)⟩
    | cons next fields =>
      rw [quotedRecord_cons_cons, List.append_assoc, checkBare_quotedField, List.cons_append, checkBare,
        if_neg plain.delimiter_ne_quote, if_pos rfl, ih (by simp)]
      intro c hc
      cases Option.mem_some.mp hc
      exact ⟨plain.delimiter_ne_quote, .inl rfl⟩

/-- No line that begins with another character than a line end or the comment character is passed over. -/
theorem dropAhead_filled {comment : Option Char} (fuel : Nat) {c : Char} (apart : c ≠ '\n' ∧ c ≠ '\r')
    (noComment : comment ≠ some c) (rest : List Char) : dropAhead comment fuel (c :: rest) = c :: rest := by
  cases fuel with
  | zero => rfl
  | succ fuel =>
    simp only [dropAhead]
    split
    · rfl
    · cases comment with
      | none => simp [apart]
      | some x =>
        have hx : c ≠ x := fun h => noComment (congrArg some h.symm)
        simp [apart, hx]

private theorem quotedRecord_head {fields : List String} (nonempty : fields ≠ []) :
    ∃ more, d.quotedRecord fields = d.quote :: more := by
  cases fields with
  | nil => exact absurd rfl nonempty
  | cons field fields =>
    cases fields with
    | nil => exact ⟨_, quotedRecord_singleton field⟩
    | cons next fields => exact ⟨_, quotedRecord_cons_cons field next fields⟩

private theorem checkQuoting_quotedRecord (plain : d.IsPlain) {lead : List Char}
    (blank : lead = [] ∨ lead = ['\n']) {fields : List String} (nonempty : fields ≠ [])
    {rest : List Char} (ends : EndsRecord rest) :
    checkQuoting d (lead ++ (d.quotedRecord fields ++ rest)) = .ok () := by
  have ahead : dropAhead d.comment (lead ++ (d.quotedRecord fields ++ rest)).length
      (lead ++ (d.quotedRecord fields ++ rest)) = d.quotedRecord fields ++ rest := by
    obtain ⟨more, hmore⟩ := quotedRecord_head (d := d) nonempty
    have hquote (fuel : Nat) (rest : List Char) :
        dropAhead d.comment fuel (d.quote :: rest) = d.quote :: rest :=
      dropAhead_filled fuel ⟨plain.quote_ne_feed, plain.quote_ne_return⟩ (plain.noComment ▸ nofun) rest
    rw [hmore, List.cons_append]
    rcases blank with rfl | rfl
    · exact hquote _ _
    · rw [List.singleton_append, List.length_cons, dropAhead]
      simp [hquote]
  rw [checkQuoting, ahead, checkBare_quotedRecord plain nonempty 0 ends]

end Checking

section Splitting
variable (d) (lineEnd : LineEnd) (closed : Bool)

private def behind : List (List String) → List Char
  | [] => if closed then lineEnd.text else []
  | fields :: more => lineEnd.text ++ (d.quotedRecord fields ++ behind more)

private theorem quotedText_cons (fields : List String) (more : List (List String)) :
    d.quotedText lineEnd closed (fields :: more) =
      d.quotedRecord fields ++ behind d lineEnd closed more := by
  induction more generalizing fields with
  | nil => simp [quotedText, behind]
  | cons next more ih =>
    rw [behind, ← ih next]
    simp [quotedText, List.intercalate]

private theorem endsRecord_behind (more : List (List String)) :
    EndsRecord (behind d lineEnd closed more) := by
  intro c hc
  cases more <;> cases lineEnd <;> cases closed <;>
    simp_all [behind, LineEnd.text, eq_comm]

/-- What is read of a text up to the first character of what stands behind. -/
theorem take_behind (before rest : List Char) :
    (before ++ rest).take ((before ++ rest).length - rest.tail.length) = before ++ rest.take 1 := by
  have hsplit : before ++ rest = (before ++ rest.take 1) ++ rest.tail := by
    rw [List.append_assoc, ← List.drop_one, List.take_append_drop]
  rw [hsplit, List.length_append, Nat.add_sub_cancel, List.take_left]

def Holds (r : Record) (fields : List String) : Prop :=
  r.fields = fields ∧ checkQuoting d r.raw = .ok ()

variable {d}

private theorem recordsFrom_quotedRecord (plain : d.IsPlain) {lead : List Char} {after : Bool}
    (blank : lead = [] ∨ lead = ['\n'] ∧ after = true) {fields : List String} (nonempty : fields ≠ [])
    {rest : List Char} (ends : EndsRecord rest) (fuel line : Nat) :
    ∃ r next, Holds d r fields ∧
      recordsFrom d (fuel + 1) line after [] (lead ++ (d.quotedRecord fields ++ rest)) =
        r :: recordsFrom d fuel next (rest.head? = some '\r') [] rest.tail := by
  obtain ⟨atStart, -, atReturn⟩ := step_quote plain
  have hscan : scan? d after (lead ++ (d.quotedRecord fields ++ rest)) =
      some ⟨fields, rest.tail, rest.head? = some '\r'⟩ := by
    rcases blank with rfl | ⟨rfl, rfl⟩
    · cases after
      · exact scanFrom_quotedRecord plain atStart nonempty [] ends
      · exact scanFrom_quotedRecord plain atReturn nonempty [] ends
    · have hfeed (text : List Char) :
          scanFrom d .afterReturn [] [] ('\n' :: text) = scanFrom d .recordStart [] [] text := by
        simp [scanFrom, step]
      exact (hfeed _).trans (scanFrom_quotedRecord plain atStart nonempty [] ends)
  have hread : (lead ++ (d.quotedRecord fields ++ rest)).take
      ((lead ++ (d.quotedRecord fields ++ rest)).length - rest.tail.length) =
        lead ++ (d.quotedRecord fields ++ rest.take 1) := by
    rw [← List.append_assoc, take_behind, List.append_assoc]
  have hfirst : EndsRecord (rest.take 1) := by
    intro c hc
    cases rest with
    | nil => simp at hc
    | cons x rest => exact ends c hc
  rw [recordsFrom, hscan]
  refine ⟨_, _, ⟨rfl, ?_⟩, rfl⟩
  dsimp only
  rw [hread, List.nil_append]
  exact checkQuoting_quotedRecord plain (blank.imp_right And.left) nonempty hfirst

private theorem recordsFrom_behind (plain : d.IsPlain) {records : List (List String)}
    (nonempty : ∀ fields ∈ records, fields ≠ []) {fuel : Nat} (enough : records.length < fuel)
    (line : Nat) :
    List.Forall₂ (Holds d)
      (recordsFrom d fuel line ((behind d lineEnd closed records).head? = some '\r') []
        (behind d lineEnd closed records).tail) records := by
  induction records generalizing fuel line with
  | nil =>
    obtain ⟨fuel, rfl⟩ := Nat.exists_eq_succ_of_ne_zero (Nat.ne_of_gt enough)
    have hnone : recordsFrom d (fuel + 1) line ((behind d lineEnd closed []).head? = some '\r') []
        (behind d lineEnd closed []).tail = [] := by
      cases lineEnd <;> cases closed <;>
        simp [behind, LineEnd.text, recordsFrom, scan?, scanFrom, step]
    rw [hnone]
    exact .nil
  | cons fields more ih =>
    obtain ⟨fuel, rfl⟩ := Nat.exists_eq_succ_of_ne_zero (Nat.ne_of_gt (Nat.zero_lt_of_lt enough))
    have hlead : ((behind d lineEnd closed (fields :: more)).tail = 
        lineEnd.text.tail ++ (d.quotedRecord fields ++ behind d lineEnd closed more)) := by
      cases lineEnd <;> rfl
    have hblank : lineEnd.text.tail = [] ∨ lineEnd.text.tail = ['\n'] ∧
        decide ((behind d lineEnd closed (fields :: more)).head? = some '\r') = true := by
      cases lineEnd <;> simp [LineEnd.text, behind]
    obtain ⟨r, next, holds, hrun⟩ := recordsFrom_quotedRecord plain hblank
      (nonempty fields List.mem_cons_self) (endsRecord_behind d lineEnd closed more) fuel line
    rw [hlead, hrun]
    exact .cons holds (ih (fun f hf => nonempty f (List.mem_cons_of_mem _ hf))
      (Nat.lt_of_succ_lt_succ enough) next)

private theorem length_behind (more : List (List String)) :
    more.length ≤ (behind d lineEnd closed more).length := by
  induction more with
  | nil => exact Nat.zero_le _
  | cons fields more ih =>
    have hpos : 0 < lineEnd.text.length := by cases lineEnd <;> decide
    simp only [behind, List.length_append, List.length_cons]
    omega

/-- A text in quotes is split into its records, and their quoting is right. -/
theorem records_quotedText (plain : d.IsPlain) {fields : List String} {more : List (List String)}
    (nonempty : ∀ f ∈ fields :: more, f ≠ []) :
    List.Forall₂ (Holds d) (Delimited.records d (d.quotedText lineEnd closed (fields :: more)))
      (fields :: more) := by
  have hfields := nonempty fields List.mem_cons_self
  rw [quotedText_cons]
  have hmark : Delimited.records d (d.quotedRecord fields ++ behind d lineEnd closed more) =
      recordsFrom d ((d.quotedRecord fields ++ behind d lineEnd closed more).length + 1) 1 false []
        (d.quotedRecord fields ++ behind d lineEnd closed more) := by
    obtain ⟨text, htext⟩ := quotedRecord_head (d := d) hfields
    have noMark : d.quote.toNat ≠ 65279 := by
      have := plain.quote_ascii
      omega
    rw [htext]
    simp [Delimited.records, noMark]
  obtain ⟨r, next, holds, hrun⟩ := recordsFrom_quotedRecord plain
    (.inl rfl : [] = [] ∨ [] = ['\n'] ∧ false = true) hfields (endsRecord_behind d lineEnd closed more)
    (d.quotedRecord fields ++ behind d lineEnd closed more).length 1
  rw [List.nil_append] at hrun
  rw [hmark, hrun]
  refine .cons holds (recordsFrom_behind lineEnd closed plain
    (fun f hf => nonempty f (List.mem_cons_of_mem _ hf)) ?_ next)
  have hlength := length_behind (d := d) lineEnd closed more
  have hrecord : 0 < (d.quotedRecord fields).length := by
    obtain ⟨text, htext⟩ := quotedRecord_head (d := d) hfields
    simp [htext]
  rw [List.length_append]
  omega

end Splitting

end Dialect

section Rows

def valueOf (text : String) : Value := if text = "" then .null else .string text

private theorem rowOf_names {names fields : List String} (distinct : names.Nodup)
    (h : fields.length = names.length) :
    rowOf (some names) fields = names.zip (fields.map valueOf) := by
  have hkeys : (names.zip (fields.map valueOf)).map Prod.fst = names :=
    List.map_fst_zip (by simp [h])
  rw [rowOf]
  refine (congrArg Fields.ofList (List.ext_getElem ?_ ?_)).trans
    (Fields.ofList_eq_self (hkeys.symm ▸ distinct))
  · simp [h]
  · intro i hi _
    have hName : i < names.length := by simpa [h] using hi
    simp [hName, valueOf]

variable {o : Options}

private theorem takeRecord_header {r : Record} {names : List String}
    (trimmed : ∀ name ∈ names, String.ofList (Unicode.trim name.toList) = name)
    (holds : o.dialect.Holds r names) :
    takeRecord o ⟨none, true⟩ r = (.header, ⟨some names, false⟩) := by
  have hnames : headerNames r = names := by
    rw [headerNames, holds.1]
    exact (List.map_congr_left trimmed).trans (List.map_id names)
  simp [takeRecord, faultOf, holds.2, hnames]

private theorem takeRecord_row {r : Record} {names fields : List String} (distinct : names.Nodup)
    (noSkip : o.skipEmptyLines = false) (holds : o.dialect.Holds r fields)
    (wide : fields.length = names.length) :
    takeRecord o ⟨some names, false⟩ r =
      (.row (names.zip (fields.map valueOf)), ⟨some names, false⟩) := by
  simp [takeRecord, faultOf, noSkip, holds.1, holds.2, wide, rowOf_names distinct wide]

private theorem readRecords_rows {names : List String} (distinct : names.Nodup)
    (noSkip : o.skipEmptyLines = false) {rs : List Record} {records : List (List String)}
    (h : List.Forall₂ o.dialect.Holds rs records)
    (wide : ∀ fields ∈ records, fields.length = names.length) :
    (readRecords o ⟨some names, false⟩ rs).Yields
      (.ok (records.map fun fields => .object (names.zip (fields.map valueOf)))) [] := by
  induction h with
  | nil => exact Reporting.yields_pure _
  | @cons r fields rs records holds _ ih =>
    rw [readRecords, takeRecord_row distinct noSkip holds (wide fields List.mem_cons_self)]
    exact (ih fun f hf => wide f (List.mem_cons_of_mem _ hf)).bind
      (f := fun rows => pure (.object (names.zip (fields.map valueOf)) :: rows))
      (Reporting.yields_pure _)

end Rows

def Options.ofDialect (d : Dialect) : Options :=
  { Options.standard with delimiter := d.delimiter, quote := d.quote }

private theorem dialect_ofDialect {d : Dialect} (plain : d.IsPlain) :
    (Options.ofDialect d).dialect = d := by
  obtain ⟨delimiter, quote, comment⟩ := d
  obtain rfl : comment = none := plain.noComment
  simp [Options.ofDialect, Options.dialect, Options.ascii, Options.standard, plain.delimiter_ascii,
    plain.quote_ascii]

/-- Text with all fields in quotes is read into one object for each record after the header: its
fields are the texts of the record under the names of the header, and null where a text is empty. -/
theorem read_quotedText {d : Dialect} (plain : d.IsPlain) (lineEnd : LineEnd) (closed : Bool)
    {names : List String} (someName : names ≠ []) (distinct : names.Nodup)
    (trimmed : ∀ name ∈ names, String.ofList (Unicode.trim name.toList) = name)
    {records : List (List String)} (wide : ∀ fields ∈ records, fields.length = names.length) :
    let text := String.ofList (d.quotedText lineEnd closed (names :: records))
    (read (.ofDialect d) text).outcome.1 =
        .ok (.array (records.map fun fields => .object (names.zip (fields.map valueOf)))) ∧
      (read (.ofDialect d) text).outcome.2.warnings = [] := by
  intro text
  have nonempty : ∀ fields ∈ names :: records, fields ≠ [] := by
    intro fields hf
    rcases List.mem_cons.mp hf with rfl | hf
    · exact someName
    · rintro rfl
      exact someName (List.length_eq_zero_iff.mp (wide [] hf).symm)
  have hrows : (readRecords (.ofDialect d) (.start (.ofDialect d))
      (Delimited.records (Options.ofDialect d).dialect text.toList)).Yields
        (.ok (records.map fun fields => .object (names.zip (fields.map valueOf)))) [] := by
    have hsplit := Dialect.records_quotedText lineEnd closed plain nonempty
    rw [String.toList_ofList, dialect_ofDialect plain]
    cases hrecords : Delimited.records d (d.quotedText lineEnd closed (names :: records)) with
    | nil =>
      rw [hrecords] at hsplit
      cases hsplit
    | cons r rs =>
      rw [hrecords, List.forall₂_cons] at hsplit
      have header : takeRecord (.ofDialect d) (.start (.ofDialect d)) r =
          (.header, ⟨some names, false⟩) :=
        takeRecord_header trimmed (by rw [dialect_ofDialect plain]; exact hsplit.1)
      rw [readRecords, header]
      exact readRecords_rows distinct rfl (by rw [dialect_ofDialect plain]; exact hsplit.2) wide
  exact read_ok hrows

/-- Names of two columns, and records that hold delimiters, quotes, line ends and nothing. -/
theorem read_quotedText_returnFeed :
    let d : Dialect := ⟨';', '\'', none⟩
    let names := ["k", "the v"]
    let records := [["x;'y", ""], ["\r\n", "\n;\n"]]
    d.IsPlain ∧ names ≠ [] ∧ names.Nodup ∧
      (∀ name ∈ names, String.ofList (Unicode.trim name.toList) = name) ∧
      (∀ fields ∈ records, fields.length = names.length) ∧
      d.quotedText .returnFeed false (names :: records) =
        "'k';'the v'\r\n'x;''y';''\r\n'\r\n';'\n;\n'".toList ∧
      (read (.ofDialect d) "'k';'the v'\r\n'x;''y';''\r\n'\r\n';'\n;\n'").outcome.1 =
        .ok (.array [.object [("k", .string "x;'y"), ("the v", .null)],
          .object [("k", .string "\r\n"), ("the v", .string "\n;\n")]]) := by
  intro d names records
  have plain : d.IsPlain := by constructor <;> decide
  have trimmed : ∀ name ∈ names, String.ofList (Unicode.trim name.toList) = name := by decide +kernel
  have wide : ∀ fields ∈ records, fields.length = names.length := by decide
  have htext : d.quotedText .returnFeed false (names :: records) =
      "'k';'the v'\r\n'x;''y';''\r\n'\r\n';'\n;\n'".toList := by decide +kernel
  refine ⟨plain, by decide, by decide, trimmed, wide, htext, ?_⟩
  have hread := (@read_quotedText d plain .returnFeed false names (by decide) (by decide) trimmed
    records wide).1
  rw [htext] at hread
  exact hread

end Tabulate.Delimited
