import Tabulate.Proofs.Frame.Derived
import Tabulate.Proofs.Query.Arrival

/-! A first stage that reads text reads as the type does that its verb is named for. A request that
states the type and one that starts with the verb both fail or have the same response. -/
namespace Tabulate.Query
open Pipeline (Program Stage)

section Success
open Reporting
variable {r : Request} {o : Delimited.Options} {input : Input}

private theorem orThrow_additive {ε α : Type} (f : ε → Error) (x : Except ε α) :
    (orThrow f x).Additive := by
  cases x with
  | error e => exact .throw _
  | ok a => exact .pure a

private theorem read_additive (type : Payload.ContentType) (o : Delimited.Options) (input : Input) :
    (input.read type o).Additive := by
  cases input with
  | bytes b => exact (Payload.read_additive type o b).mapError _
  | text t => exact (Payload.readText_additive type o _).mapError _
  | value v => exact .pure v

private theorem readRoot_additive (r : Request) (o : Delimited.Options) (input : Input) :
    (readRoot r o input).Additive := (read_additive _ o input).bind fun _ => orThrow_additive _ _

private theorem startOf_additive (r : Request) (o : Delimited.Options) (input : Input) (p : Program) :
    (startOf r o input p).Additive := by
  unfold startOf
  split
  · exact orThrow_additive _ _
  · exact readRoot_additive r o input

private theorem runProgram_additive (p : Program) (v : Value) :
    ((p.run v).mapError Error.stage).Additive := (p.run_additive v).mapError _

private theorem runEngine_additive (r : Request) (o : Delimited.Options) (input : Input) :
    (runEngine r o input).Additive := by
  cases h : r.engine with
  | simple | backend =>
    rw [runEngine, h]
    exact readRoot_additive r o input
  | uql =>
    obtain ⟨notes, hparse, -⟩ := Program.yields_parse o r.uql
    rw [runEngine_uql h]
    exact Additive.bind ⟨_, _, hparse.mapError _⟩ fun p =>
      (startOf_additive r o input p).bind (runProgram_additive p)
  | groq =>
    rw [runEngine, h]
    exact (orThrow_additive _ _).bind fun query => (readRoot_additive r o input).bind fun _ => .pure _

private theorem ofRows_additive {ε : Type} (name : String) (columns : List Column) (rows : List Value) :
    (Table.ofRows name columns rows : Reporting ε Table).Additive := by
  obtain ⟨used, note, -, hYields⟩ := Table.ofRows_yields_assemble (ε := ε) name columns rows
  exact ⟨_, _, hYields⟩

private theorem ofTable_additive (t : Table) : (SeriesSet.ofTable t).Additive := by
  unfold SeriesSet.ofTable
  split
  · exact .throw _
  · dsimp only
    split
    · exact .throw _
    · split
      · exact (Additive.warn _).bind fun _ => (Additive.debug _ _).bind fun _ => .pure _
      · exact (Additive.debug _ _).bind fun _ => .pure _
  · exact .throw _

private theorem shapeRows_additive (r : Request) (columns : List Column) (rows : List Value) :
    (shapeRows r columns rows).Additive := by
  unfold shapeRows
  split
  · exact (ofRows_additive _ _ _).bind fun _ => .pure _
  · exact (((ofRows_additive _ _ _).bind ofTable_additive).mapError _).bind fun _ => .pure _

/-- A program that is read runs on what its first stage is applied to. -/
theorem success?_runEngine_uql (h : r.engine = .uql) :
    (runEngine r o input).success? =
      (Stage.parseAll o r.uql).toOption.bind fun stages =>
        (startOf r o input ⟨"uql", stages⟩).success?.bind fun found =>
          ((⟨"uql", stages⟩ : Program).run found.1).success?.map (Prod.map id (found.2 ++ ·)) := by
  obtain ⟨notes, hparse, hnotes⟩ := Program.yields_parse o r.uql
  rw [runEngine_uql h, success?_bind _ fun p =>
    (startOf_additive r o input p).bind (runProgram_additive p), success?_mapError, hparse.success?,
    hnotes]
  cases Stage.parseAll o r.uql with
  | error e => rfl
  | ok stages =>
    refine (Option.map_id' (x := _)).trans ?_
    rw [success?_bind _ (runProgram_additive _)]
    simp only [success?_mapError]
    rfl

theorem success?_answer (defaults : Defaults) (r : Request) (input : Input) :
    (answer defaults r input).success? =
      r.check.toOption.bind fun _ =>
        (runEngine r (r.options.getD defaults.options) input).success?.bind fun found =>
          (shapeRows r (r.columns.map (·.withPattern defaults.pattern)) found.1.rows).success?.map
            (Prod.map id (found.2 ++ ·)) := by
  have hshape := shapeRows_additive r (r.columns.map (·.withPattern defaults.pattern))
  unfold answer
  cases r.check with
  | error fault => exact ((yields_throw _).bind_error _).success?
  | ok =>
    simp only [orThrow, pure_bind]
    rw [success?_debug_bind]
    · exact success?_bind _ fun v => hshape v.rows
    · exact (runEngine_additive _ _ _).bind fun v => hshape v.rows

/-- A response is what a request is answered with, and the warnings on the way. -/
theorem toOption_respond (defaults : Defaults) (r : Request) (input : Input) :
    (respond defaults r input).1.toOption =
      (answer defaults r input).success?.map fun found => ⟨found.1, found.2⟩ := by
  unfold respond success?
  cases h : (answer defaults r input).outcome.1 <;> simp [h, Except.map, Except.toOption]

/-- Only the check, what an engine makes of a payload and the shape of rows tell requests apart. -/
theorem toOption_respond_congr {defaults : Defaults} {s : Request} (hcheck : r.check = s.check)
    (hengine : (runEngine r (r.options.getD defaults.options) input).success? =
      (runEngine s (s.options.getD defaults.options) input).success?)
    (hshape : ∀ rows, shapeRows r (r.columns.map (·.withPattern defaults.pattern)) rows =
      shapeRows s (s.columns.map (·.withPattern defaults.pattern)) rows) :
    (respond defaults r input).1.toOption = (respond defaults s input).1.toOption := by
  rw [toOption_respond, toOption_respond, success?_answer, success?_answer, hcheck, hengine]
  simp only [hshape]

end Success

section Verbs

def readingVerb? : Payload.ContentType → Option String
  | .json => some "parse-json"
  | .csv => some "parse-csv"
  | .xml => some "parse-xml"
  | .html => some "parse-html"
  | .yaml => some "parse-yaml"
  | .tsv | .graphql => none

/-- A stage that reads a text without a mark as a type is read. -/
structure Reads (o : Delimited.Options) (type : Payload.ContentType) (s : Stage) : Prop where
  readsText : s.readsText = true
  apply {text : String} (noMark : withoutMark text.toList = text.toList) :
    (s.apply (.string text)).success? = (Payload.readText type o text).success?

private theorem readingVerb_plain {type : Payload.ContentType} {verb : String}
    (h : readingVerb? type = some verb) :
    Token.lex verb true = .ok [⟨.ident verb, 0⟩] ∧ Unicode.lower verb = verb := by
  have hverbs : ∀ verb ∈ ["parse-json", "parse-csv", "parse-xml", "parse-html", "parse-yaml"],
      Token.lex verb true = .ok [⟨.ident verb, 0⟩] ∧ Unicode.lower verb = verb := by decide
  cases type with
  | tsv | graphql => cases h
  | json | csv | xml | html | yaml =>
    cases h
    exact hverbs _ (by decide)

/-- The verb of a type names a stage that reads it. -/
theorem exists_reads (o : Delimited.Options) {type : Payload.ContentType} {verb : String}
    (h : readingVerb? type = some verb) :
    ∃ stage, Stage.parseAll o verb = .ok [stage] ∧ Reads o type stage := by
  obtain ⟨hlex, hlower⟩ := readingVerb_plain h
  cases type with
  | tsv | graphql => cases h
  | json =>
    cases h
    refine ⟨_, Pipeline.parseAll_verb .parseJson hlex hlower rfl fun _ => rfl, rfl, ?_⟩
    intro text noMark
    rw [Stage.apply, Stage.readJson, noMark, String.ofList_toList]
    exact Reporting.success?_mapError _ _
  | csv =>
    cases h
    exact ⟨_, Pipeline.parseAll_verb .parseCsv hlex hlower rfl fun _ => rfl, rfl,
      fun _ => Reporting.success?_mapError _ _⟩
  | xml =>
    cases h
    exact ⟨_, Pipeline.parseAll_verb (.parseMarkup .xml) hlex hlower rfl fun _ => rfl, rfl,
      fun _ => Reporting.success?_mapError _ _⟩
  | html =>
    cases h
    exact ⟨_, Pipeline.parseAll_verb (.parseMarkup .html) hlex hlower rfl fun _ => rfl, rfl,
      fun _ => Reporting.success?_mapError _ _⟩
  | yaml =>
    cases h
    exact ⟨_, Pipeline.parseAll_verb .parseYaml hlex hlower rfl fun _ => rfl, rfl,
      fun _ => Reporting.success?_mapError _ _⟩

private theorem check_congr {r s : Request} (hr : r.engine = .uql) (hs : s.engine = .uql)
    (notBlank : r.uql.toList.all Unicode.isBlank = false)
    (otherNotBlank : s.uql.toList.all Unicode.isBlank = false)
    (hcolumns : checkColumns (r.shape = .series) r.columns = checkColumns (s.shape = .series) s.columns) :
    r.check = s.check := by
  rw [Request.check, Request.check, hr, hs]
  simp only [checkQueryText, notBlank, otherNotBlank, hcolumns]

private theorem notBlank_bar (source next : String) :
    (source ++ " | " ++ next).toList.all Unicode.isBlank = false := by
  simp [Token.isBlank_bar]

private theorem withoutMark_of_head {chars : List Char} (h : chars.head? ≠ some '\ufeff') :
    withoutMark chars = chars := by
  cases chars with
  | nil => rfl
  | cons c rest =>
    have hmark : c.toNat ≠ 0xfeff := fun hc => h (congrArg some (Char.toNat_inj.mp hc))
    rw [withoutMark, if_neg hmark]

private theorem readRoot_whole {r : Request} (h : r.root = "") (o : Delimited.Options) (input : Input) :
    readRoot r o input = input.read r.contentType o := by
  have hselect : ∀ v, selectRoot "" v = .ok v := fun _ => rfl
  rw [readRoot, h]
  simp only [hselect, orThrow, bind_pure]

private theorem success?_runEngine_verb (r : Request) {o : Delimited.Options}
    {type : Payload.ContentType} {verb rest : String} {bytes : List Nat} {chars : List Char}
    (hverb : readingVerb? type = some verb) (hbytes : Utf8.decode bytes = .ok chars)
    (noMark : withoutMark chars = chars) (noReading : startsByReading o rest = false) :
    (runEngine { r with engine := .uql, root := "", uql := verb ++ " | " ++ rest } o
        (.bytes bytes)).success? =
      (runEngine { r with engine := .uql, contentType := type, root := "", uql := rest } o
        (.bytes bytes)).success? := by
  obtain ⟨stage, hstage, hreads⟩ := exists_reads o hverb
  have hlex : Token.lex verb true = .ok ([] ++ [⟨.ident verb, 0⟩]) := (readingVerb_plain hverb).1
  have hjoin : ∀ {stages}, Stage.parseAll o (verb ++ " | " ++ rest) = .ok stages ↔
      ∃ more, Stage.parseAll o rest = .ok more ∧ stages = [stage] ++ more :=
    Pipeline.parseAll_bar_iff hstage hlex (by simp)
  rw [success?_runEngine_uql rfl, success?_runEngine_uql rfl]
  -- Either both texts are programs, one with the stage before those of the other, or neither is.
  cases hrest : Stage.parseAll o rest with
  | error e =>
    cases hjoined : Stage.parseAll o (verb ++ " | " ++ rest) with
    | error e => rfl
    | ok stages =>
      obtain ⟨more, hmore, -⟩ := hjoin.mp hjoined
      cases hrest.symm.trans hmore
  | ok more =>
    have hfirst : (⟨"uql", more⟩ : Program).startsWithParse = false := by
      rwa [startsByReading_eq, hrest] at noReading
    have hjoined := hjoin.mpr ⟨more, hrest, rfl⟩
    have hstart : (⟨"uql", [stage] ++ more⟩ : Program).startsWithParse = true := hreads.readsText
    have hraw : (Input.bytes bytes).raw = .ok (.string (String.ofList chars)) := by
      rw [raw_of_decode hbytes, noMark]
    have happly := hreads.apply (show withoutMark (String.ofList chars).toList = _ by simp [noMark])
    rw [hjoined]
    simp only [Except.toOption, Option.bind_some, startOf_handedOver hstart, startOf_read hfirst, hraw,
      orThrow, Reporting.success?_pure, readRoot_whole, read_of_decode hbytes, noMark,
      Reporting.success?_mapError]
    refine (Option.map_id' (x := _)).trans ?_
    rw [List.singleton_append, Program.success?_run_cons, happly]

/-- A first stage that reads a type does what reading the payload in that type does. For a text
without a byte order mark and a program that does not itself start by reading, both requests fail or
both have the same response. -/
theorem respond_readingVerb (defaults : Defaults) (r : Request) {type : Payload.ContentType}
    {verb rest : String} {bytes : List Nat} {chars : List Char} (hverb : readingVerb? type = some verb)
    (hbytes : Utf8.decode bytes = .ok chars) (noMark : chars.head? ≠ some '\ufeff')
    (notBlank : rest.toList.all Unicode.isBlank = false)
    (noReading : startsByReading (r.options.getD defaults.options) rest = false) :
    (respond defaults { r with engine := .uql, root := "", uql := verb ++ " | " ++ rest }
        (.bytes bytes)).1.toOption =
      (respond defaults { r with engine := .uql, contentType := type, root := "", uql := rest }
        (.bytes bytes)).1.toOption := by
  refine toOption_respond_congr ?_ ?_ fun _ => rfl
  · exact check_congr rfl rfl (notBlank_bar verb rest) notBlank rfl
  · exact success?_runEngine_verb r hverb hbytes (withoutMark_of_head noMark) noReading

def numbersRequest : Request := { Request.standard with columns := [⟨"b", "", .number, none⟩] }

/-- The text is read with a warning on either way. -/
theorem respond_readingVerb_csv :
    readingVerb? .csv = some "parse-csv" ∧
      Utf8.decode [97, 44, 98, 10, 49, 44, 120] = .ok ['a', ',', 'b', '\n', '1', ',', 'x'] ∧
      "where b == 'x'".toList.all Unicode.isBlank = false ∧
      startsByReading .standard "where b == 'x'" = false ∧
      (respond .standard
          { numbersRequest with engine := .uql, root := "", uql := "parse-csv" ++ " | " ++ "where b == 'x'" }
          (.bytes [97, 44, 98, 10, 49, 44, 120])).1.toOption =
        (respond .standard
          { numbersRequest with engine := .uql, contentType := .csv, root := "", uql := "where b == 'x'" }
          (.bytes [97, 44, 98, 10, 49, 44, 120])).1.toOption ∧
      (respond .standard
        { numbersRequest with engine := .uql, contentType := .csv, root := "", uql := "where b == 'x'" }
        (.bytes [97, 44, 98, 10, 49, 44, 120])).1.toOption.map (·.warnings) =
          some ["column 'b': 1 value(s) could not be converted to Number"] := by
  have hbytes : Utf8.decode [97, 44, 98, 10, 49, 44, 120] = .ok ['a', ',', 'b', '\n', '1', ',', 'x'] := by
    decide +kernel
  have notBlank : "where b == 'x'".toList.all Unicode.isBlank = false := by decide +kernel
  have noReading : startsByReading .standard "where b == 'x'" = false := by decide +kernel
  exact ⟨rfl, hbytes, notBlank, noReading,
    respond_readingVerb .standard numbersRequest rfl hbytes (by decide) notBlank noReading,
    by decide +kernel⟩

end Verbs
end Tabulate.Query
