import Tabulate.Delimited.Reader
import Tabulate.Settings.Document

/-! Options for delimited text, as settings state them and as they are written back. -/
namespace Tabulate.Settings
open Delimited (Options)

def optionsNames : List (List String) :=
  [["delimiter"], ["quote"], ["comment"], ["has_header"], ["headers"], ["skip_empty_lines"],
    ["skip_lines_with_error"], ["relax_column_count"]]

/-- The options that a document states; the others are the standard ones. -/
def readOptions? (d : Document) : Option Options := do
  let field ← d.fields? optionsNames
  let standard := Options.standard
  return {
    delimiter := ← orDefault standard.delimiter (·.asChar?) (field 0)
    quote := ← orDefault standard.quote (·.asChar?) (field 1)
    comment := ← orDefault standard.comment (·.asOption? (·.asChar?)) (field 2)
    hasHeader := ← orDefault standard.hasHeader (·.asBool?) (field 3)
    headers := ← orDefault standard.headers (·.asList? (·.asText?)) (field 4)
    skipEmptyLines := ← orDefault standard.skipEmptyLines (·.asBool?) (field 5)
    skipFaultyLines := ← orDefault standard.skipFaultyLines (·.asBool?) (field 6)
    relaxColumnCount := ← orDefault standard.relaxColumnCount (·.asBool?) (field 7) }

private def charTree (c : Char) : Json.Tree := .string (String.singleton c)

def optionsTree (o : Options) : Json.Tree :=
  .object [
    ("delimiter", charTree o.delimiter),
    ("quote", charTree o.quote),
    ("comment", (o.comment.map charTree).getD .null),
    ("has_header", .bool o.hasHeader),
    ("headers", .array (o.headers.map .string)),
    ("skip_empty_lines", .bool o.skipEmptyLines),
    ("skip_lines_with_error", .bool o.skipFaultyLines),
    ("relax_column_count", .bool o.relaxColumnCount)]

end Tabulate.Settings
