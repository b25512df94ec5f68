import Tabulate.Proofs.Frame.Validity
import Tabulate.Proofs.Outcomes
import Tabulate.Proofs.Query.Reading

/-! What a request is refused for before it runs is what its series would fail for. A request with
declared columns that is not refused is answered without a fault of series, and a request for series
without columns is answered with an error. -/
namespace Tabulate.Query
open Pipeline (Program)
open Reporting

def Error.isOfSeries : Error → Bool
  | .series _ => true
  | .payload _ | .parse _ | .stage _ | .groq _ | .jsonata _ | .request _ => false

def NotOfSeries (e : Error) : Prop := e.isOfSeries = false

section Engine

private theorem orThrow_failsIn {ε α : Type} {f : ε → Error} {x : Except ε α}
    (h : ∀ e, x = .error e → NotOfSeries (f e)) : (orThrow f x).FailsIn NotOfSeries := by
  cases x with
  | error e => exact .throw (h e rfl)
  | ok a => exact .pure a

private theorem read_failsIn (input : Input) (type : Payload.ContentType) (o : Delimited.Options) :
    (input.read type o).FailsIn NotOfSeries := by
  cases input with
  | bytes b => exact .mapError (fun _ => by rfl) _
  | text t => exact .mapError (fun _ => by rfl) _
  | value v => exact .pure v

private theorem readRoot_failsIn (r : Request) (o : Delimited.Options) (input : Input) :
    (readRoot r o input).FailsIn NotOfSeries :=
  (read_failsIn input _ o).bind fun _ => orThrow_failsIn fun _ _ => rfl

private theorem startOf_failsIn (r : Request) (o : Delimited.Options) (input : Input) (p : Program) :
    (startOf r o input p).FailsIn NotOfSeries := by
  unfold startOf
  split
  · refine orThrow_failsIn fun e he => ?_
    cases input with
    | text t => contradiction
    | value v => contradiction
    | bytes b =>
      rw [Input.raw] at he
      cases hdecode : (decodeText b).map Value.string with
      | ok v =>
        rw [hdecode] at he
        contradiction
      | error fault =>
        rw [hdecode] at he
        cases he
        rfl
  · exact readRoot_failsIn r o input

/-- Whatever an engine fails for, it is not what rows are made into. -/
theorem runEngine_failsIn (r : Request) (o : Delimited.Options) (input : Input) :
    (runEngine r o input).FailsIn NotOfSeries := by
  cases h : r.engine with
  | simple | backend =>
    rw [runEngine, h]
    exact readRoot_failsIn r o input
  | uql =>
    rw [runEngine_uql h]
    exact (FailsIn.mapError (fun _ => by rfl) _).bind fun p =>
      (startOf_failsIn r o input p).bind fun _ => .mapError (fun _ => by rfl) _
  | groq =>
    have hquery : (orThrow Error.groq (Groq.Query.parse r.groq)).FailsIn NotOfSeries :=
      orThrow_failsIn fun _ _ => rfl
    rw [runEngine, h]
    exact hquery.bind fun query => (readRoot_failsIn r o input).bind fun _ => .pure _

end Engine

section Shape

private theorem checkColumns_of_check {r : Request} (h : r.check = .ok ()) :
    checkColumns (r.shape = .series) r.columns = .ok () := by
  unfold Request.check at h
  split at h
  · obtain ⟨_, -, hcolumns⟩ := exists_of_bind_eq_ok h
    exact eq_ok_of_mapError hcolumns
  · obtain ⟨_, -, hcolumns⟩ := exists_of_bind_eq_ok h
    exact eq_ok_of_mapError hcolumns
  · exact eq_ok_of_mapError h
  · exact eq_ok_of_mapError h

private theorem shapeRows_failsIn {r : Request} (declared : r.columns ≠ []) (h : r.check = .ok ())
    (pattern : Option String) (rows : List Value) :
    (shapeRows r (r.columns.map (·.withPattern pattern)) rows).FailsIn NotOfSeries := by
  have hcheck := checkColumns_of_check h
  have declared' : r.columns.map (·.withPattern pattern) ≠ [] := by simpa using declared
  rw [← checkColumns_withPattern pattern] at hcheck
  generalize r.columns.map (·.withPattern pattern) = columns at hcheck declared' ⊢
  cases hshape : r.shape with
  | table =>
    obtain ⟨used, note, -, htable⟩ := Table.ofRows_yields_assemble (ε := Error) r.name columns rows
    rw [shapeRows, hshape]
    exact (FailsIn.of_ok htable).bind fun _ => .pure _
  | series =>
    obtain ⟨used, result, j, -, hseries, -⟩ := SeriesSet.yields_ofRows r.name columns rows
    have hmakes := SeriesSet.checkColumns_eq_ofRows r.name declared' (isAddressed_of_checkColumns hcheck) rows
    rw [hshape, decide_eq_true rfl] at hcheck
    rw [hcheck, hseries.outcome] at hmakes
    rw [shapeRows, hshape]
    cases result with
    | error fault => contradiction
    | ok set => exact (FailsIn.of_ok (hseries.mapError _)).bind fun _ => .pure _

private theorem success?_shapeRows_derived {r : Request} (hshape : r.shape = .series)
    (rows : List Value) : (shapeRows r [] rows).success? = none := by
  obtain ⟨j, hseries⟩ := SeriesSet.yields_ofRows_derived r.name rows
  rw [shapeRows, hshape]
  exact ((hseries.mapError Error.series).bind_error _).success?

end Shape

section Answers
variable {defaults : Defaults} {r : Request} {input : Input}

private theorem answer_failsIn (declared : r.columns ≠ []) :
    (answer defaults r input).FailsIn NotOfSeries := by
  unfold answer
  cases hcheck : r.check with
  | error fault =>
    refine FailsIn.of_yields ((yields_throw _).bind_error _) fun e he => ?_
    cases he
    rfl
  | ok =>
    simp only [orThrow, pure_bind]
    exact (FailsIn.of_ok (yields_debug _ _)).bind fun _ =>
      (runEngine_failsIn r _ input).bind fun v => shapeRows_failsIn declared hcheck _ v.rows

private theorem respond_ne_series (declared : r.columns ≠ []) (fault : SeriesFault) :
    (respond defaults r input).1 ≠ .error (.series fault) := by
  intro h
  unfold respond at h
  rcases houtcome : (answer defaults r input).outcome with ⟨e | output, journal⟩
  · rw [houtcome] at h
    cases h
    have hnot : (Error.series fault).isOfSeries = false := answer_failsIn declared [] _ journal houtcome
    contradiction
  · rw [houtcome] at h
    contradiction

private theorem exists_respond_error (hshape : r.shape = .series) (hcolumns : r.columns = []) :
    ∃ e, (respond defaults r input).1 = .error e := by
  have hnone : (respond defaults r input).1.toOption = none := by
    rw [toOption_respond, success?_answer, hcolumns]
    simp only [List.map_nil, success?_shapeRows_derived hshape, Option.map_none, Option.bind_fun_none]
  cases hrespond : (respond defaults r input).1 with
  | error e => exact ⟨e, rfl⟩
  | ok response =>
    rw [hrespond] at hnone
    contradiction

end Answers

/-- Declared columns that are all addressed pass the check for series if and only if rows make series
in them, whatever the rows are, and in columns that are derived no rows do. So a request with declared
columns never ends in a fault of series, and one for series without columns always fails. -/
theorem checkColumns_iff_series (defaults : Defaults) (name : String) (rows : List Value) :
    (∀ columns : List Column, columns ≠ [] → (∀ c ∈ columns, c.IsAddressed) →
      (checkColumns true columns = .ok () ↔
        ∃ set, (SeriesSet.ofRows name columns rows).outcome.1 = .ok set)) ∧
    (SeriesSet.ofRows name [] rows).outcome.1 = .error .noTimestamp ∧
    ∀ (r : Request) (input : Input),
      (r.columns ≠ [] → ∀ fault, (respond defaults r input).1 ≠ .error (.series fault)) ∧
      (r.shape = .series → r.columns = [] → ∃ e, (respond defaults r input).1 = .error e) := by
  refine ⟨fun columns declared addressed => ?_, ?_, fun r input => ⟨respond_ne_series, exists_respond_error⟩⟩
  · rw [SeriesSet.checkColumns_eq_ofRows name declared addressed rows]
    cases (SeriesSet.ofRows name columns rows).outcome.1 with
    | error fault => exact ⟨nofun, nofun⟩
    | ok set => exact ⟨fun _ => ⟨set, rfl⟩, fun _ => rfl⟩
  · obtain ⟨j, hseries⟩ := SeriesSet.yields_ofRows_derived name rows
    rw [hseries.outcome]

def readingColumns : List Column := [⟨"at", "", .epochSeconds, none⟩, ⟨"", "n", .number, none⟩]

def seriesRequest : Request := { Request.standard with shape := .series }

/-- Readings pass the check and make series even of no rows. Without their time they do neither, and a
request for them is refused where a request without columns fails. -/
theorem checkColumns_iff_series_readings :
    (readingColumns ≠ [] ∧ (∀ c ∈ readingColumns, c.IsAddressed) ∧
      checkColumns true readingColumns = .ok () ∧
      ∃ set, (SeriesSet.ofRows "n" readingColumns []).outcome.1 = .ok set) ∧
    (readingColumns.tail ≠ [] ∧ (∀ c ∈ readingColumns.tail, c.IsAddressed) ∧
      checkColumns true readingColumns.tail = .error (.timestamps 0) ∧
      ¬ ∃ set, (SeriesSet.ofRows "n" readingColumns.tail []).outcome.1 = .ok set) ∧
    (SeriesSet.ofRows "n" [] []).outcome.1 = .error .noTimestamp ∧
    (∀ fault, (respond .standard { seriesRequest with columns := readingColumns.tail }
      (.value .null)).1 ≠ .error (.series fault)) ∧
    ∃ e, (respond .standard seriesRequest (.value .null)).1 = .error e := by
  obtain ⟨hiff, hderived, hrespond⟩ := checkColumns_iff_series .standard "n" []
  have declared : readingColumns ≠ [] := by decide
  have declared' : readingColumns.tail ≠ [] := by decide
  have addressed : ∀ c ∈ readingColumns, c.IsAddressed := by decide +kernel
  have addressed' : ∀ c ∈ readingColumns.tail, c.IsAddressed := by decide +kernel
  have passes : checkColumns true readingColumns = .ok () := by rfl
  have fails : checkColumns true readingColumns.tail = .error (.timestamps 0) := by rfl
  refine ⟨⟨declared, addressed, passes, (hiff _ declared addressed).mp passes⟩,
    ⟨declared', addressed', fails, fun made => ?_⟩, hderived, (hrespond _ _).1 declared',
    (hrespond _ _).2 rfl rfl⟩
  rw [(hiff _ declared' addressed').mpr made] at fails
  contradiction

end Tabulate.Query
