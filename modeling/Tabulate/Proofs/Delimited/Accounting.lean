import Mathlib.Data.List.Forall2
import Tabulate.Delimited.Reader
import Tabulate.Proofs.Reports

/-! Strict and lenient reading take the same steps up to the first faulty record, and lenient
reading accounts for each record once. -/
namespace Tabulate.Delimited

def Options.strict (o : Options) : Options := { o with skipFaultyLines := false }

def Options.lenient (o : Options) : Options := { o with skipFaultyLines := true }

namespace Fate

def isHeader : Fate → Bool
  | header => true
  | blank | faulty _ | row _ => false

def row? : Fate → Option Value
  | row fields => some (.object fields)
  | header | blank | faulty _ => none

def error? : Fate → Option LineError
  | faulty e => some e
  | header | blank | row _ => none

end Fate

def fatesFrom (o : Options) : Progress → List Record → List Fate
  | _, [] => []
  | p, r :: rest => (takeRecord o p r).1 :: fatesFrom o (takeRecord o p r).2 rest

/-- The names that hold after the header: given ones, or else those of the header record. -/
def namesOf (given : Option (List String)) (records : List Record) (fates : List Fate) :
    Option (List String) :=
  given.or (((records.zip fates).find? fun p => p.2.isHeader).map fun p => headerNames p.1)

def Justifies (o : Options) (names : Option (List String)) (r : Record) : Fate → Prop
  | .header => checkQuoting o.dialect r.raw = .ok ()
  | .blank => o.skipEmptyLines ∧ ∀ text ∈ r.fields, ∀ c ∈ text.toList, Unicode.isBlank c
  | .faulty e => e.line = r.line ∧
      ((∃ fault, e.fault = .quoting fault ∧ checkQuoting o.dialect r.raw = .error fault) ∨
        (∃ known, names = some known ∧ known.length ≠ r.fields.length ∧
          e.fault = .columnCount known.length r.fields.length ∧ !o.relaxColumnCount))
  | .row fields => checkQuoting o.dialect r.raw = .ok () ∧ fields = rowOf names r.fields ∧
      ∀ known, names = some known → o.relaxColumnCount ∨ known.length = r.fields.length

/-- Each record has one fate, which is justified. At most one is the header, if there is to be
one, and blank records and rows come after it. -/
structure Accounts (o : Options) (records : List Record) (fates : List Fate) : Prop where
  each : List.Forall₂ (Justifies o (namesOf (Progress.start o).names records fates)) records fates
  oneHeader : fates.countP Fate.isHeader ≤ 1
  noHeader : !o.hasHeader → fates.countP Fate.isHeader = 0
  afterHeader : o.hasHeader → ∀ before fate after, fates = before ++ fate :: after →
    fate = .blank ∨ (∃ fields, fate = .row fields) → before.countP Fate.isHeader = 1

section Steps
variable {o : Options} {p : Progress} {r : Record}

private theorem isBlank_iff : r.isBlank ↔ ∀ text ∈ r.fields, ∀ c ∈ text.toList, Unicode.isBlank c := by
  simp [Record.isBlank]

private theorem takeRecord_pending (h : p.headerPending = true) :
    (∃ fault, takeRecord o p r = (.faulty ⟨r.line, .quoting fault⟩, p) ∧
      checkQuoting o.dialect r.raw = .error fault) ∨
    (takeRecord o p r = (.header, ⟨p.names.or (some (headerNames r)), false⟩) ∧
      checkQuoting o.dialect r.raw = .ok ()) := by
  unfold takeRecord faultOf
  cases hq : checkQuoting o.dialect r.raw with
  | error fault => exact .inl ⟨fault, by simp [h], rfl⟩
  | ok => exact .inr ⟨by simp [h], rfl⟩

private theorem takeRecord_settled (h : p.headerPending = false) :
    (takeRecord o p r).2 = p ∧ (takeRecord o p r).1.isHeader = false ∧
      Justifies o p.names r (takeRecord o p r).1 := by
  unfold takeRecord faultOf
  by_cases blank : o.skipEmptyLines ∧ r.isBlank
  · simpa [h, blank, Fate.isHeader, Justifies] using isBlank_iff.mp blank.2
  · have hblank : (o.skipEmptyLines && !p.headerPending && r.isBlank) = false := by
      simpa [h] using blank
    rw [if_neg (by simp [hblank])]
    cases hq : checkQuoting o.dialect r.raw with
    | error fault => simp [Fate.isHeader, Justifies, hq]
    | ok =>
      by_cases relaxed : o.relaxColumnCount
      · simp [h, relaxed, Fate.isHeader, Justifies, hq]
      · cases hn : p.names with
        | none => simp [h, relaxed, Fate.isHeader, Justifies, hq]
        | some known =>
          by_cases count : known.length = r.fields.length
          · simp [h, relaxed, Fate.isHeader, Justifies, hq, count]
          · simp [h, relaxed, Fate.isHeader, Justifies, hq, count]

end Steps

private theorem fatesFrom_settled (o : Options) {p : Progress} (h : p.headerPending = false)
    (records : List Record) :
    List.Forall₂ (Justifies o p.names) records (fatesFrom o p records) ∧
      (fatesFrom o p records).countP Fate.isHeader = 0 := by
  induction records with
  | nil => exact ⟨.nil, rfl⟩
  | cons r rest ih =>
    obtain ⟨hp, hh, hj⟩ := takeRecord_settled (o := o) (r := r) h
    rw [fatesFrom, hp, List.countP_cons, hh]
    exact ⟨.cons hj ih.1, by simpa using ih.2⟩

theorem namesOf_settled (given : Option (List String)) (records : List Record) {fates : List Fate}
    (h : fates.countP Fate.isHeader = 0) : namesOf given records fates = given := by
  have hnone : (records.zip fates).find? (fun p => p.2.isHeader) = none := by
    rw [List.find?_eq_none]
    intro p hp
    exact List.countP_eq_zero.mp h p.2 (List.of_mem_zip hp).2
  rw [namesOf, hnone, Option.map_none, Option.or_none]

private theorem fatesFrom_pending (o : Options) {p : Progress} (h : p.headerPending = true)
    (records : List Record) :
    List.Forall₂ (Justifies o (namesOf p.names records (fatesFrom o p records))) records
        (fatesFrom o p records) ∧
      (fatesFrom o p records).countP Fate.isHeader ≤ 1 ∧
      ∀ before fate after, fatesFrom o p records = before ++ fate :: after →
        fate = .blank ∨ (∃ fields, fate = .row fields) → before.countP Fate.isHeader = 1 := by
  -- up to the header all records are faulty in their quoting
  induction records with
  | nil => exact ⟨.nil, Nat.zero_le _, fun before => by simp [fatesFrom]⟩
  | cons r rest ih =>
    rw [fatesFrom]
    rcases takeRecord_pending (o := o) (r := r) h with ⟨fault, hstep, hq⟩ | ⟨hstep, hq⟩
    · rw [hstep]
      dsimp only
      refine ⟨.cons ⟨rfl, .inl ⟨fault, rfl, hq⟩⟩ ih.1, by simpa [Fate.isHeader] using ih.2.1, ?_⟩
      intro before fate after split kind
      cases before with
      | nil =>
        obtain ⟨rfl, -⟩ := List.cons.inj split
        simp at kind
      | cons first before =>
        obtain ⟨rfl, hrest⟩ := List.cons.inj split
        simpa [Fate.isHeader] using ih.2.2 before fate after hrest kind
    · obtain ⟨heach, hnone⟩ :=
        fatesFrom_settled o (p := ⟨p.names.or (some (headerNames r)), false⟩) rfl rest
      rw [hstep]
      dsimp only
      refine ⟨.cons hq ?_, ?_, ?_⟩
      · simpa only [namesOf, List.zip_cons_cons, List.find?_cons, Fate.isHeader, Option.map_some]
          using heach
      · rw [List.countP_cons, hnone]
        exact Nat.le_refl 1
      · intro before fate after split kind
        cases before with
        | nil =>
          obtain ⟨rfl, -⟩ := List.cons.inj split
          simp at kind
        | cons first before =>
          obtain ⟨rfl, hrest⟩ := List.cons.inj split
          rw [hrest, List.append_eq, List.countP_append, Nat.add_eq_zero_iff] at hnone
          rw [List.countP_cons, hnone.1]
          rfl

/-- A run over records accounts for each of them. -/
theorem accounts_fatesFrom (o : Options) (records : List Record) :
    Accounts o records (fatesFrom o (.start o) records) := by
  cases h : o.hasHeader with
  | true =>
    obtain ⟨heach, hone, hafter⟩ := fatesFrom_pending o (p := .start o) h records
    exact ⟨heach, hone, by simp [h], fun _ => hafter⟩
  | false =>
    obtain ⟨heach, hnone⟩ := fatesFrom_settled o (p := .start o) h records
    refine ⟨?_, by omega, fun _ => hnone, by simp [h]⟩
    rwa [namesOf_settled _ _ hnone]

private theorem fatesFrom_skip (o : Options) (skip : Bool) (p : Progress) (records : List Record) :
    fatesFrom { o with skipFaultyLines := skip } p records = fatesFrom o p records := by
  induction records generalizing p with
  | nil => rfl
  | cons r rest ih => exact congrArg (_ :: ·) (ih _)

private theorem readRecords_lenient {o : Options} (h : o.skipFaultyLines = true) (p : Progress)
    (records : List Record) :
    (readRecords o p records).Yields (.ok ((fatesFrom o p records).filterMap Fate.row?))
      (.warned (((fatesFrom o p records).filterMap Fate.error?).map LineError.warning)) := by
  induction records generalizing p with
  | nil => exact Reporting.yields_pure _
  | cons r rest ih =>
    rw [readRecords, fatesFrom]
    rcases takeRecord o p r with ⟨_ | _ | e | fields, next⟩
    · exact ih next
    · exact ih next
    · simp only [h, if_true]
      exact (Reporting.yields_warn _).bind (ih next)
    · have hrest := (ih next).bind (f := fun rows => pure (.object fields :: rows)) (Reporting.yields_pure _)
      rwa [List.append_nil] at hrest

private theorem readRecords_strict {o : Options} (h : o.skipFaultyLines = false) (p : Progress)
    (records : List Record) :
    (readRecords o p records).Yields
      (match (fatesFrom o p records).filterMap Fate.error? with
        | [] => .ok ((fatesFrom o p records).filterMap Fate.row?)
        | e :: _ => .error e) [] := by
  induction records generalizing p with
  | nil => exact Reporting.yields_pure _
  | cons r rest ih =>
    rw [readRecords, fatesFrom]
    rcases takeRecord o p r with ⟨_ | _ | e | fields, next⟩
    · exact ih next
    · exact ih next
    · simp only [h]
      exact Reporting.yields_throw e
    · have hrest := ih next
      simp only [List.filterMap_cons, Fate.error?, Fate.row?] at hrest ⊢
      cases hfates : (fatesFrom o next rest).filterMap Fate.error? with
      | nil =>
        rw [hfates] at hrest
        exact hrest.bind (f := fun rows => pure (.object fields :: rows)) (Reporting.yields_pure _)
      | cons e more =>
        rw [hfates] at hrest
        exact hrest.bind_error _

private theorem readRecords_additive (o : Options) (p : Progress) (records : List Record) :
    (readRecords o p records).Additive := by
  cases h : o.skipFaultyLines with
  | true => exact ⟨_, _, readRecords_lenient h p records⟩
  | false => exact ⟨_, _, readRecords_strict h p records⟩

theorem read_additive (o : Options) (text : String) : (read o text).Additive :=
  (readRecords_additive o _ _).bind fun _ => (Reporting.Additive.debug _ _).bind fun _ => .pure _

/-- What reading a text yields if rows are what its records are turned into. -/
theorem read_ok {o : Options} {text : String} {rows : List Value} {j : Journal}
    (h : (readRecords o (.start o) (records o.dialect text.toList)).Yields (.ok rows) j) :
    (read o text).outcome.1 = .ok (.array rows) ∧
      (read o text).outcome.2.warnings = j.warnings := by
  have hread : (read o text).Yields (.ok (.array rows)) _ :=
    h.bind ((Reporting.yields_debug .delimited _).bind (Reporting.yields_pure _))
  rw [hread.outcome]
  exact ⟨rfl, by simp⟩

private theorem read_error {o : Options} {text : String} {e : LineError} {j : Journal}
    (h : (readRecords o (.start o) (records o.dialect text.toList)).Yields (.error e) j) :
    (read o text).outcome.1 = .error e := by
  have hread : (read o text).Yields (.error e) j := h.bind_error _
  rw [hread.outcome]

/-- A text that is read has the rows that its records are turned into. -/
theorem rows_of_read_ok {o : Options} {text : String} {v : Value} (h : (read o text).outcome.1 = .ok v) :
    v = .array ((fatesFrom o (.start o) (records o.dialect text.toList)).filterMap Fate.row?) := by
  cases hskip : o.skipFaultyLines with
  | true =>
    rw [(read_ok (readRecords_lenient hskip _ _)).1] at h
    exact (Except.ok.inj h).symm
  | false =>
    have hstrict := readRecords_strict hskip (.start o) (records o.dialect text.toList)
    cases herrors : (fatesFrom o (.start o) (records o.dialect text.toList)).filterMap Fate.error? with
    | nil =>
      rw [herrors] at hstrict
      rw [(read_ok hstrict).1] at h
      exact (Except.ok.inj h).symm
    | cons e more =>
      rw [herrors] at hstrict
      rw [read_error hstrict] at h
      cases h

/-- Lenient reading gives each record one fate, and with them its rows and its warnings. What
strict reading accepts it accepts, and where strict reading ends its warnings start. -/
theorem read_strict_lenient (o : Options) (text : String) :
    ∃ fates, Accounts o (records o.dialect text.toList) fates ∧
      (read o.lenient text).outcome.1 = .ok (.array (fates.filterMap Fate.row?)) ∧
      (read o.lenient text).outcome.2.warnings =
        (fates.filterMap Fate.error?).map LineError.warning ∧
      (∀ v, (read o.strict text).outcome.1 = .ok v →
        (read o.lenient text).outcome.1 = .ok v ∧
          (read o.lenient text).outcome.2.warnings = []) ∧
      (∀ e, (read o.strict text).outcome.1 = .error e →
        (read o.lenient text).outcome.2.warnings.head? =
          some s!"skipped CSV line {e.line}: {e.fault.message}") := by
  have hlenient := readRecords_lenient (o := o.lenient) rfl (.start o)
    (records o.dialect text.toList)
  have hstrict := readRecords_strict (o := o.strict) rfl (.start o)
    (records o.dialect text.toList)
  rw [Options.lenient, fatesFrom_skip] at hlenient
  rw [Options.strict, fatesFrom_skip] at hstrict
  obtain ⟨hrows, hwarnings⟩ := read_ok hlenient
  rw [Journal.warnings_warned] at hwarnings
  refine ⟨_, accounts_fatesFrom o _, hrows, hwarnings, ?_⟩
  rw [Options.lenient, hrows, hwarnings]
  cases herrors : (fatesFrom o (.start o) (records o.dialect text.toList)).filterMap Fate.error? with
  | nil =>
    rw [herrors] at hstrict
    rw [Options.strict, (read_ok hstrict).1]
    exact ⟨fun v h => ⟨h, rfl⟩, fun e h => nomatch h⟩
  | cons first more =>
    rw [herrors] at hstrict
    rw [Options.strict, read_error hstrict]
    refine ⟨fun v h => (nomatch h), fun e h => ?_⟩
    cases h
    rfl

end Tabulate.Delimited
