import Tabulate.Proofs.Groq.Readers
import Tabulate.Proofs.Pipeline.Composition
import Tabulate.Proofs.Token.Places

/-! Where the errors of the query languages lie: between two characters of the source. An error in a quoted
expression is placed as if it stood in the source without its backslashes, so with backslashes it may lie within
a character. -/
namespace Tabulate

section Sources
variable {source : String}

/-- An error in an expression lies at a place of its text. -/
theorem Jsonata.isPlace_of_parse {e : Jsonata.Error} (h : Jsonata.Expression.parse source = .error e) :
    IsPlace source.toList e.position := by
  cases hstream : Token.stream source false with
  | error fault =>
    rw [Expression.parse, hstream] at h
    cases h
    exact Token.isPlace_of_stream hstream
  | ok ts =>
    rcases parse_settles hstream with hempty | hread
    · rw [hempty] at h
      cases h
      exact isPlace_zero _
    · obtain ⟨us, hus, he⟩ := hread.of_eq_error h
      rw [he]
      exact ((Token.standIn_of_stream hstream).of_isRestOf hus).isPlace

/-- An error in a query lies at a place of its text. -/
theorem Groq.isPlace_of_parse {e : Groq.SyntaxError} (h : Groq.Query.parse source = .error e) :
    IsPlace source.toList e.position := by
  cases hstream : Token.stream source false with
  | error fault =>
    rw [Query.parse, hstream] at h
    cases h
    exact Token.isPlace_of_stream hstream
  | ok ts =>
    obtain ⟨us, hus, he⟩ := (parse_settles hstream).of_eq_error h
    rw [he]
    exact ((Token.standIn_of_stream hstream).of_isRestOf hus).isPlace

end Sources

namespace Pipeline

/-- The error of an expression in quotes with a backslash, placed behind the quote by as many bytes as the
expression has before it without backslashes. -/
def LiesBehindEscape (text : List Char) (e : ParseError) : Prop :=
  ∃ before quote raw after inner error, text = before ++ quote :: (raw ++ quote :: after) ∧ '\\' ∈ raw ∧
    Token.takeQuoted? quote (raw ++ quote :: after) = some (inner, after) ∧
    Jsonata.Expression.parse (String.ofList inner) = .error error ∧
    e = .malformed (byteCount before + 1 + error.position) (.jsonata error.fault)

private theorem exists_of_peek? {us : Tokens} {inner : String}
    (h : us.peek? = some (.quoted inner) ∨ us.peek? = some (.singleQuoted inner)) :
    ∃ lexeme rest finish, us = ⟨lexeme :: rest, finish⟩ ∧
      (lexeme.token = .quoted inner ∨ lexeme.token = .singleQuoted inner) := by
  obtain ⟨_ | ⟨lexeme, rest⟩, finish⟩ := us
  · rcases h with h | h <;> contradiction
  · exact ⟨lexeme, rest, finish, rfl, h.imp Option.some.inj Option.some.inj⟩

private theorem place_of_blames {text : List Char} {us : Tokens} (h : us.StandIn true text) {e : ParseError}
    (blames : Blames us e) :
    e.position ≤ byteCount text ∧ (IsPlace text e.position ∨ LiesBehindEscape text e) := by
  rcases blames with hfirst | ⟨inner, error, hpeek, hparse, rfl⟩
  · have hplace := h.isPlace
    rw [← hfirst] at hplace
    exact ⟨hplace.le, .inl hplace⟩
  · obtain ⟨lexeme, rest, finish, rfl, htoken⟩ := exists_of_peek? hpeek
    obtain ⟨before, quote, more, after, rfl, hposition, hfirst⟩ := h.rest lexeme List.mem_cons_self
    obtain ⟨hquote, htaken⟩ := Token.first_quoted hfirst htoken
    obtain ⟨raw, rfl, hle, hplain⟩ := Token.exists_of_takeQuoted? htaken
    have hsize : quote.utf8Size = 1 := by
      rcases hquote with rfl | rfl <;> rfl
    have hstart : (⟨lexeme :: rest, finish⟩ : Tokens).position = byteCount before := hposition.symm
    have hinner := Jsonata.isPlace_of_parse hparse
    rw [hstart]
    constructor
    · have hwithin := hinner.le
      rw [ParseError.position, byteCount_append, byteCount_cons, byteCount_append, hsize]
      omega
    · by_cases escaped : '\\' ∈ raw
      · refine .inr ⟨before, quote, raw, after, inner.toList, error, rfl, escaped, htaken, ?_, rfl⟩
        rw [String.ofList_toList]
        exact hparse
      · have hplace := hinner.inside (before ++ [quote]) (quote :: after)
        rw [hplain escaped, byteCount_append, byteCount_cons, hsize, List.append_assoc] at hplace
        exact .inl hplace

/-- An error in a pipeline lies within its text, at a place of it or behind an escape. -/
theorem place_of_parseAll {defaults : Delimited.Options} {source : String} {e : ParseError}
    (h : Stage.parseAll defaults source = .error e) :
    e.position ≤ byteCount source.toList ∧ (IsPlace source.toList e.position ∨ LiesBehindEscape source.toList e) := by
  cases hstream : Token.stream source true with
  | error fault =>
    rw [Stage.parseAll, hstream] at h
    cases h
    have hplace := Token.isPlace_of_stream hstream
    exact ⟨hplace.le, .inl hplace⟩
  | ok ts =>
    obtain ⟨us, hus, blames⟩ := (parseAll_settles defaults hstream).of_eq_error h
    exact place_of_blames ((Token.standIn_of_stream hstream).of_isRestOf hus) blames

end Pipeline

namespace Query
open Pipeline (Program LiesBehindEscape)

/-- An error in an expression and one in a query lie between two characters of the source, or at one of its ends.
An error in a pipeline lies in the source, and between two of its characters unless it is one of an expression in
quotes that are written with a backslash. -/
theorem place_of_error (source : String) :
    (∀ e, Jsonata.Expression.parse source = .error e → IsPlace source.toList e.position) ∧
      (∀ e, Groq.Query.parse source = .error e → IsPlace source.toList e.position) ∧
      ∀ defaults e, (Program.parse defaults source).outcome.1 = .error e →
        e.position ≤ byteCount source.toList ∧
          (IsPlace source.toList e.position ∨ LiesBehindEscape source.toList e) :=
  ⟨fun _ => Jsonata.isPlace_of_parse, fun _ => Groq.isPlace_of_parse, fun _ _ h =>
    Pipeline.place_of_parseAll (Program.parse_eq_error_iff.mp h)⟩

theorem place_of_error_quoted :
    ∃ expressionError queryError pipelineError,
      Jsonata.Expression.parse "jsonata 'é b'" = .error expressionError ∧ expressionError.position = 8 ∧
      Groq.Query.parse "jsonata 'é b'" = .error queryError ∧ queryError.position = 0 ∧
      (Program.parse .standard "jsonata 'é b'").outcome.1 = .error pipelineError ∧ pipelineError.position = 12 ∧
      IsPlace "jsonata 'é b'".toList expressionError.position ∧ IsPlace "jsonata 'é b'".toList queryError.position ∧
      pipelineError.position ≤ byteCount "jsonata 'é b'".toList ∧
      (IsPlace "jsonata 'é b'".toList pipelineError.position ∨
        LiesBehindEscape "jsonata 'é b'".toList pipelineError) := by
  have hexpression : Jsonata.Expression.parse "jsonata 'é b'" = .error ⟨8, .unexpected "'é b'"⟩ :=
    eq_error_of_errorOf? (by decide +kernel)
  have hquery : Groq.Query.parse "jsonata 'é b'" = .error ⟨0, .noStar "'jsonata'"⟩ :=
    eq_error_of_errorOf? (by decide +kernel)
  have hpipeline : (Program.parse .standard "jsonata 'é b'").outcome.1 =
      .error (.malformed 12 (.jsonata (.unexpected "'b'"))) := eq_error_of_errorOf? (by decide +kernel)
  obtain ⟨hexpressions, hqueries, hpipelines⟩ := place_of_error "jsonata 'é b'"
  exact ⟨_, _, _, hexpression, rfl, hquery, rfl, hpipeline, rfl, hexpressions _ hexpression, hqueries _ hquery,
    hpipelines _ _ hpipeline⟩

/-- In quotes with a backslash, an error may lie within a character. -/
theorem place_of_error_escaped :
    ∃ e, (Program.parse .standard "jsonata '\\né)'").outcome.1 = .error e ∧
      ¬ IsPlace "jsonata '\\né)'".toList e.position := by
  have hparse : (Program.parse .standard "jsonata '\\né)'").outcome.1 =
      .error (.malformed 12 (.jsonata (.unexpected "')'"))) := eq_error_of_errorOf? (by decide +kernel)
  have within : ¬ IsPlace "jsonata '\\né)'".toList 12 := by decide +kernel
  exact ⟨_, hparse, within⟩

end Query
end Tabulate
