import Tabulate.Proofs.Pipeline.Composition
import Tabulate.Proofs.Text.Utf8
import Tabulate.Query.Run

/-! A text is answered as its bytes are, up to a byte order mark: bytes lose it, and a text that is
handed over to the first stage of a program keeps it. -/
namespace Tabulate.Query
open Pipeline (Program Stage)

def startsByReading (o : Delimited.Options) (source : String) : Bool :=
  (Program.parse o source).outcome.1.toOption.any Program.startsWithParse

theorem startsByReading_eq (o : Delimited.Options) (source : String) :
    startsByReading o source =
      (Stage.parseAll o source).toOption.any fun stages => (⟨"uql", stages⟩ : Program).startsWithParse := by
  obtain ⟨notes, hparse, -⟩ := Program.yields_parse o source
  rw [startsByReading, hparse.outcome]
  cases Stage.parseAll o source <;> rfl

def startOf (r : Request) (o : Delimited.Options) (input : Input) (p : Program) : Reporting Error Value :=
  if p.startsWithParse then orThrow id input.raw else readRoot r o input

section Start
variable {r : Request} {o : Delimited.Options} {p : Program}

theorem startOf_handedOver (h : p.startsWithParse = true) (input : Input) :
    startOf r o input p = orThrow id input.raw := if_pos h

theorem startOf_read (h : p.startsWithParse = false) (input : Input) :
    startOf r o input p = readRoot r o input := if_neg (by simp [h])

theorem runEngine_uql (h : r.engine = .uql) (input : Input) :
    runEngine r o input =
      (Program.parse o r.uql).mapError Error.parse >>= fun p =>
        startOf r o input p >>= fun start => (p.run start).mapError .stage := by
  rw [runEngine, h]
  refine bind_congr fun p => ?_
  dsimp only [startOf]
  split <;> rfl

end Start

section Arrival

/-- Whether a request hands its payload as it is to the first stage of a program. -/
def handsOver (o : Delimited.Options) (r : Request) : Bool :=
  r.engine = .uql && startsByReading o r.uql

variable {r : Request} {o : Delimited.Options} {input other : Input}

private theorem readRoot_congr (h : input.read r.contentType o = other.read r.contentType o) :
    readRoot r o input = readRoot r o other := by
  rw [readRoot, readRoot, h]

/-- An engine either hands a payload over as it is or reads it. -/
theorem runEngine_congr (hraw : handsOver o r = true → input.raw = other.raw)
    (hread : handsOver o r = false → input.read r.contentType o = other.read r.contentType o) :
    runEngine r o input = runEngine r o other := by
  cases hengine : r.engine with
  | simple | backend =>
    have hroot := readRoot_congr (hread (by simp [handsOver, hengine]))
    rw [runEngine, runEngine, hengine]
    exact hroot
  | groq =>
    rw [runEngine, runEngine, hengine]
    dsimp only
    rw [readRoot_congr (hread (by simp [handsOver, hengine]))]
  | uql =>
    -- Both read the same program, and only what its first stage is applied to can differ.
    obtain ⟨notes, hparse, -⟩ := Program.yields_parse o r.uql
    rw [runEngine_uql hengine, runEngine_uql hengine]
    refine (hparse.mapError Error.parse).bind_congr fun p hp => ?_
    have hstarts : handsOver o r = p.startsWithParse := by
      rw [handsOver, hengine, startsByReading_eq]
      cases hstages : Stage.parseAll o r.uql with
      | error e =>
        rw [hstages] at hp
        contradiction
      | ok stages =>
        rw [hstages] at hp
        cases hp
        rfl
    cases hfirst : p.startsWithParse with
    | false =>
      rw [startOf_read hfirst, startOf_read hfirst, readRoot_congr (hread (hstarts.trans hfirst))]
    | true =>
      rw [startOf_handedOver hfirst, startOf_handedOver hfirst, hraw (hstarts.trans hfirst)]

private theorem respond_congr {defaults : Defaults}
    (h : runEngine r (r.options.getD defaults.options) input =
      runEngine r (r.options.getD defaults.options) other) :
    respond defaults r input = respond defaults r other := by
  rw [respond, respond, answer, answer, h]

end Arrival

private theorem decodeText_of_decode {bytes : List Nat} {chars : List Char}
    (h : Utf8.decode bytes = .ok chars) :
    decodeText bytes = .ok (String.ofList (withoutMark chars)) := by
  rw [decodeText, h]
  rfl

theorem read_of_decode {bytes : List Nat} {chars : List Char} (h : Utf8.decode bytes = .ok chars)
    (type : Payload.ContentType) (o : Delimited.Options) :
    (Input.bytes bytes).read type o =
      (Payload.readText type o (String.ofList (withoutMark chars))).mapError .payload := by
  rw [Input.read, Payload.read, decodeText_of_decode h]
  rfl

theorem raw_of_decode {bytes : List Nat} {chars : List Char} (h : Utf8.decode bytes = .ok chars) :
    (Input.bytes bytes).raw = .ok (.string (String.ofList (withoutMark chars))) := by
  rw [Input.raw, decodeText_of_decode h]
  rfl

/-- The bytes of a text are answered as the text is, without its byte order mark if a program starts
by reading it. -/
theorem respond_bytes_encode (defaults : Defaults) (r : Request) (text : String) :
    respond defaults r (.bytes (Utf8.encode text)) =
      respond defaults r (.text
        (if handsOver (r.options.getD defaults.options) r then String.ofList (withoutMark text.toList)
        else text)) := by
  have hdecode := Utf8.decode_encode text
  refine respond_congr (runEngine_congr (fun hands => ?_) fun hands => ?_)
  · rw [raw_of_decode hdecode, if_pos hands]
    rfl
  · rw [read_of_decode hdecode, if_neg (by simp [hands])]
    rfl

def parseRows : Request := { Request.standard with engine := .uql, contentType := .csv, uql := "parse-csv" }

/-- A first stage meets the mark of a text, here before a quote, which then opens no field. The same
text as bytes is a table. -/
theorem respond_text_marked :
    respond .standard parseRows (.text "\ufeff\"a\"\n1") ≠
      respond .standard parseRows (.bytes (Utf8.encode "\ufeff\"a\"\n1")) := by
  intro h
  have hbytes : Utf8.encode "\ufeff\"a\"\n1" = [239, 187, 191, 34, 97, 34, 10, 49] := by
    rw [Utf8.encode_eq_flatMap]
    decide +kernel
  have hfails : (respond .standard parseRows (.text "\ufeff\"a\"\n1")).1.toOption.isSome = false := by
    decide +kernel
  have hreads : (respond .standard parseRows
      (.bytes [239, 187, 191, 34, 97, 34, 10, 49])).1.toOption.isSome = true := by decide +kernel
  rw [h, hbytes, hreads] at hfails
  contradiction

end Tabulate.Query
