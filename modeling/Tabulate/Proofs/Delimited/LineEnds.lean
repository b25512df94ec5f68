import Mathlib.Data.List.Chain
import Tabulate.Proofs.Delimited.Lines
import Tabulate.Proofs.Outcomes

/-! Which line end a text is written with decides what the check of quotes sees of a record. A line
feed, with or without a carriage return before it, makes no difference to what reading ends in. A
carriage return alone does: behind a blank line it ends the check before the record begins. -/
namespace Tabulate.Delimited

def LineEnd.join (lineEnd : LineEnd) (lines : List (List Char)) : String :=
  String.ofList (lineEnd.text.intercalate lines)

/-- What reading lines ends in: a value, or a fault apart from the line that it is found in. -/
def readLines (o : Options) (lineEnd : LineEnd) (lines : List (List Char)) : Except Fault Value :=
  (read o (lineEnd.join lines)).outcome.1.mapError LineError.fault

def advance (o : Options) (p : Progress) (r : Record) : Except Fault (Option Value × Progress) :=
  match takeRecord o p r with
  | (.header, next) | (.blank, next) => .ok (none, next)
  | (.faulty e, _) => .error e.fault
  | (.row fields, next) => .ok (some (.object fields), next)

section Reading
variable {o : Options} {r s : Record}

private theorem advance_eq (p : Progress) :
    advance o p r =
      if o.skipEmptyLines && !p.headerPending && r.isBlank then .ok (none, p)
      else
        match faultOf o p r with
        | some fault => .error fault
        | none =>
          if p.headerPending then .ok (none, ⟨p.names.or (some (headerNames r)), false⟩)
          else .ok (some (.object (rowOf p.names r.fields)), p) := by
  unfold advance takeRecord
  split_ifs <;> cases faultOf o p r <;> rfl

private theorem advance_congr (p : Progress) (h : o.dialect.content r = o.dialect.content s) :
    advance o p r = advance o p s := by
  obtain ⟨fields, quoting⟩ := Prod.mk.inj h
  have hfault : faultOf o p r = faultOf o p s := by rw [faultOf, faultOf, fields, quoting]
  rw [advance_eq, advance_eq, Record.isBlank, Record.isBlank, headerNames, headerNames, fields, hfault]

private theorem advance_covers (p : Progress) (fields : r.fields = s.fields)
    (quoting : Covers (checkQuoting o.dialect r.raw) (checkQuoting o.dialect s.raw)) :
    Covers (advance o p r) (advance o p s) := by
  have hfault (h : faultOf o p s = none) : faultOf o p r = none := by
    unfold faultOf at h ⊢
    cases hs : checkQuoting o.dialect s.raw with
    | error e => simp [hs] at h
    | ok => rwa [quoting () hs, fields, ← hs]
  rw [advance_eq, advance_eq, Record.isBlank, Record.isBlank, headerNames, headerNames, fields]
  split
  · exact .refl _
  · cases hs : faultOf o p s with
    | some fault => exact .of_error _ fault
    | none =>
      rw [hfault hs]
      exact .refl _

private theorem readRecords_cons (strict : o.skipFaultyLines = false) (p : Progress) (r : Record)
    (rest : List Record) :
    (readRecords o p (r :: rest)).outcome.1.mapError LineError.fault =
      advance o p r >>= fun step =>
        (readRecords o step.2 rest).outcome.1.mapError LineError.fault >>= fun rows =>
          .ok (step.1.toList ++ rows) := by
  -- what reading ends in, apart from the line of a fault
  have hskipped (x : Except LineError (List Value)) :
      x.mapError LineError.fault = x.mapError LineError.fault >>= fun rows => .ok ([] ++ rows) := by
    cases x <;> rfl
  rw [readRecords, advance]
  rcases takeRecord o p r with ⟨_ | _ | e | fields, next⟩
  · exact hskipped _
  · exact hskipped _
  · simp only [strict]
    rfl
  · have hrest := Reporting.outcome_bind (readRecords o next rest)
      (f := fun rows => pure (.object fields :: rows)) fun rows => .pure _
    refine (congrArg (Except.mapError LineError.fault) hrest).trans ?_
    change _ = (readRecords o next rest).outcome.1.mapError LineError.fault >>= _
    cases (readRecords o next rest).outcome.1 <;> rfl

private theorem readRecords_congr (strict : o.skipFaultyLines = false) {rs ss : List Record}
    (h : rs.map o.dialect.content = ss.map o.dialect.content) (p : Progress) :
    (readRecords o p rs).outcome.1.mapError LineError.fault =
      (readRecords o p ss).outcome.1.mapError LineError.fault := by
  induction rs generalizing ss p with
  | nil =>
    obtain rfl := List.map_eq_nil_iff.mp h.symm
    rfl
  | cons r rs ih =>
    obtain ⟨s, ss, rfl, hfirst, hrest⟩ := List.map_eq_cons_iff.mp h.symm
    rw [readRecords_cons strict, readRecords_cons strict, advance_congr p hfirst.symm]
    simp only [ih hrest.symm]

private theorem readRecords_covers (strict : o.skipFaultyLines = false) {rs ss : List Record}
    (h : List.Forall₂ (fun a b => a.1 = b.1 ∧ Covers a.2 b.2) (rs.map o.dialect.content)
      (ss.map o.dialect.content)) (p : Progress) :
    Covers ((readRecords o p rs).outcome.1.mapError LineError.fault)
      ((readRecords o p ss).outcome.1.mapError LineError.fault) := by
  rw [List.forall₂_map_left_iff, List.forall₂_map_right_iff] at h
  induction h generalizing p with
  | nil => exact .refl _
  | cons hfirst _ ih =>
    rw [readRecords_cons strict, readRecords_cons strict]
    exact (advance_covers p hfirst.1 hfirst.2).bind fun step _ =>
      (ih step.2).bind fun rows _ => .refl _

private theorem readLines_eq (lineEnd : LineEnd) (lines : List (List Char)) :
    readLines o lineEnd lines =
      (readRecords o (.start o)
        (records o.dialect (lineEnd.text.intercalate lines))).outcome.1.mapError LineError.fault >>=
          fun rows => .ok (.array rows) := by
  have hread := Reporting.outcome_bind
    (readRecords o (.start o) (records o.dialect (lineEnd.text.intercalate lines)))
    (f := fun rows => do
      Reporting.debug .delimited s!"read {rows.length} CSV rows"
      return Value.array rows)
    fun rows => (Reporting.Additive.debug _ _).bind fun _ => .pure _
  rw [readLines, read, LineEnd.join, String.toList_ofList]
  refine (congrArg (Except.mapError LineError.fault) hread).trans ?_
  cases (readRecords o (.start o) (records o.dialect (lineEnd.text.intercalate lines))).outcome.1 <;> rfl

private theorem atField_mark (c : Char) (mark : c.toNat = 0xfeff) :
    o.dialect.atField c = .take .bare := by
  have ascii (x fallback : Char) (h : fallback.toNat < 128) : c ≠ Options.ascii x fallback := by
    rintro rfl
    unfold Options.ascii at mark
    split at mark <;> omega
  have hquote : c ≠ o.dialect.quote := ascii _ _ (by decide)
  have hdelimiter : c ≠ o.dialect.delimiter := ascii _ _ (by decide)
  have hends : ¬(c = '\n' ∨ c = '\r') := by rintro (rfl | rfl) <;> simp at mark
  simp [Dialect.atField, Dialect.inField, hquote, hdelimiter, hends]

end Reading

section Verdicts
variable {d : Dialect}

private theorem verdict_returnFeed (l : RecordLine) :
    l.verdict d .returnFeed = l.verdict d .feed := by
  simp [RecordLine.verdict]

private theorem verdict_return (l : RecordLine) :
    l.verdict d .carriageReturn = if 0 < l.blanks then .ok () else l.verdict d .feed := by
  simp only [RecordLine.verdict]
  split_ifs <;> simp_all

private theorem verdict_covers (l : RecordLine) :
    Covers (l.verdict d .carriageReturn) (l.verdict d .feed) := by
  rw [verdict_return]
  split
  · exact fun _ _ => rfl
  · exact .refl _

private theorem verdict_of_isChain {mark : List Char} {blanks : Nat} {lines : List (List Char)}
    (right : lines.IsChain fun first line => first = [] → checkBare d 0 true line = .ok ())
    (head : mark = [] → 0 < blanks → ∀ line ∈ lines.head?, checkBare d 0 true line = .ok ()) :
    ∀ l ∈ recordLines mark blanks lines, l.verdict d .carriageReturn = l.verdict d .feed := by
  induction lines generalizing mark blanks with
  | nil => simp [recordLines]
  | cons line lines ih =>
    obtain ⟨next, hlines⟩ := List.isChain_cons.mp right
    cases line with
    | nil => exact ih hlines fun _ _ line hline => next line hline rfl
    | cons c line =>
      rw [recordLines, List.forall_mem_cons, verdict_return]
      refine ⟨?_, ih hlines fun _ h => absurd h (Nat.lt_irrefl 0)⟩
      split
      · by_cases hmark : mark = []
        · have hline := head hmark ‹_› (c :: line) rfl
          simp [RecordLine.verdict, hmark, hline]
        · simp [RecordLine.verdict, *]
      · rfl

private theorem verdict_splitMark {lines : List (List Char)}
    (right : lines.IsChain fun first line => first = [] → checkBare d 0 true line = .ok ()) :
    ∀ l ∈ recordLines (splitMark lines).1 0 (splitMark lines).2,
      l.verdict d .carriageReturn = l.verdict d .feed := by
  have hstart : ∀ l ∈ recordLines [] 0 lines, l.verdict d .carriageReturn = l.verdict d .feed :=
    verdict_of_isChain right fun _ h => absurd h (Nat.lt_irrefl 0)
  unfold splitMark
  split
  case h_2 => exact hstart
  case h_1 c line lines =>
    split_ifs
    · have hlines := (List.isChain_cons.mp right).2
      cases line with
      | nil =>
        rw [recordLines]
        exact verdict_of_isChain hlines fun h => absurd h (List.cons_ne_nil c [])
      | cons x line =>
        rw [recordLines, List.forall_mem_cons, verdict_return]
        exact ⟨rfl, verdict_of_isChain hlines fun _ h => absurd h (Nat.lt_irrefl 0)⟩
    · exact hstart

end Verdicts

/-- Lines of which none leaves a quote open at its end are read strictly to the same value, or to the
same fault, with line feeds as with carriage returns and line feeds. A value that they are read to is
the same with carriage returns alone, and so is a fault if the quotes of each line behind a blank one
are right. -/
theorem readLines_lineEnd {o : Options} (lined : o.dialect.IsLined)
    (strict : o.skipFaultyLines = false) {lines : List (List Char)} (areLines : ∀ line ∈ lines, IsLine line)
    (closed : ∀ line ∈ (splitMark lines).2.dropLast, o.dialect.endOf line ≠ .quoted) :
    readLines o .returnFeed lines = readLines o .feed lines ∧
      Covers (readLines o .carriageReturn lines) (readLines o .feed lines) ∧
      (lines.IsChain (fun first line => first = [] → checkBare o.dialect 0 true line = .ok ()) →
        readLines o .carriageReturn lines = readLines o .feed lines) := by
  have hrecords (lineEnd : LineEnd) :=
    o.dialect.records_lines lineEnd lined atField_mark areLines closed
  have hsame {lineEnd : LineEnd} (h : ∀ l ∈ recordLines (splitMark lines).1 0 (splitMark lines).2,
      l.verdict o.dialect lineEnd = l.verdict o.dialect .feed) :
      readLines o lineEnd lines = readLines o .feed lines := by
    have hcontent : (records o.dialect (lineEnd.text.intercalate lines)).map o.dialect.content =
        (records o.dialect (LineEnd.feed.text.intercalate lines)).map o.dialect.content := by
      rw [hrecords, hrecords]
      exact List.map_congr_left fun l hl => congrArg (o.dialect.fieldsOf l.line, ·) (h l hl)
    rw [readLines_eq, readLines_eq, readRecords_congr strict hcontent]
  have hcovers : List.Forall₂ (fun a b => a.1 = b.1 ∧ Covers a.2 b.2)
      ((records o.dialect (LineEnd.carriageReturn.text.intercalate lines)).map o.dialect.content)
      ((records o.dialect (LineEnd.feed.text.intercalate lines)).map o.dialect.content) := by
    rw [hrecords, hrecords, List.forall₂_map_left_iff, List.forall₂_map_right_iff, List.forall₂_same]
    exact fun l _ => ⟨rfl, verdict_covers l⟩
  refine ⟨hsame fun l _ => verdict_returnFeed l, ?_, fun right => hsame (verdict_splitMark right)⟩
  rw [readLines_eq, readLines_eq]
  exact (readRecords_covers strict hcovers _).bind fun _ _ => .refl _

/-- A blank line, a field in quotes that holds delimiter and quotes, and two blank lines at the end. -/
theorem readLines_lineEnd_blank :
    let o := Options.standard
    let lines := ["k,v".toList, [], "\"a,\"\"b\",1".toList, [], []]
    let value := Value.array [.object [("k", .string "a,\"b"), ("v", .string "1")]]
    o.dialect.IsLined ∧ o.skipFaultyLines = false ∧ (∀ line ∈ lines, IsLine line) ∧
      (∀ line ∈ (splitMark lines).2.dropLast, o.dialect.endOf line ≠ .quoted) ∧
      lines.IsChain (fun first line => first = [] → checkBare o.dialect 0 true line = .ok ()) ∧
      readLines o .feed lines = .ok value ∧ readLines o .returnFeed lines = .ok value ∧
      readLines o .carriageReturn lines = .ok value := by
  intro o lines value
  have lined : o.dialect.IsLined := by constructor <;> decide
  have areLines : ∀ line ∈ lines, IsLine line := by decide +kernel
  have closed : ∀ line ∈ (splitMark lines).2.dropLast, o.dialect.endOf line ≠ .quoted := by decide
  have right : lines.IsChain
      fun first line => first = [] → checkBare o.dialect 0 true line = .ok () := by decide +kernel
  have hfeed : readLines o .feed lines = .ok value := by decide +kernel
  obtain ⟨hreturnFeed, -, hreturn⟩ := readLines_lineEnd lined rfl areLines closed
  exact ⟨lined, rfl, areLines, closed, right, hfeed, hreturnFeed.trans hfeed,
    (hreturn right).trans hfeed⟩

/-- A blank line that ends in a carriage return hides the quote in the line behind it. -/
theorem readLines_return_hides :
    let o := { Options.standard with hasHeader := false }
    let lines := [[], "a\"b".toList]
    o.dialect.IsLined ∧ o.skipFaultyLines = false ∧ (∀ line ∈ lines, IsLine line) ∧
      (∀ line ∈ (splitMark lines).2.dropLast, o.dialect.endOf line ≠ .quoted) ∧
      readLines o .feed lines = .error (.quoting (.opening 0)) ∧
      readLines o .carriageReturn lines =
        .ok (.array [.object [("column_0", .string "a\"b")]]) := by
  intro o lines
  exact ⟨by constructor <;> decide, rfl, by decide +kernel, by decide, by decide +kernel, by decide +kernel⟩

/-- A delimiter that is a line end is more than a line end: here it parts the fields of one record. -/
example :
    let o := { Options.standard with hasHeader := false, delimiter := '\n' }
    readLines o .feed [['a'], ['b']] =
        .ok (.array [.object [("column_0", .string "a"), ("column_1", .string "b")]]) ∧
      readLines o .carriageReturn [['a'], ['b']] =
        .ok (.array [.object [("column_0", .string "a")], .object [("column_0", .string "b")]]) :=
  ⟨by decide +kernel, by decide +kernel⟩

end Tabulate.Delimited
