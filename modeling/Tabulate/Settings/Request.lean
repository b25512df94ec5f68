import Tabulate.Query.Request
import Tabulate.Settings.Options

/-! Columns, requests and defaults, as documents state them. -/
namespace Tabulate.Settings
open Query

private def formatNames : List (String × ColumnFormat) :=
  [("string", .string), ("number", .number), ("timestamp", .timestamp),
    ("timestamp_epoch", .epochMillis), ("timestamp_epoch_millis", .epochMillis),
    ("timestamp_epoch_s", .epochSeconds), ("timestamp_epoch_seconds", .epochSeconds)]

private def shapeNames : List (String × Shape) :=
  [("table", .table), ("timeseries", .series), ("time_series", .series)]

def columnNames : List (List String) :=
  [["selector"], ["alias", "text"], ["type", "format"], ["timestamp_pattern"]]

def readColumn? (d : Document) : Option Column := do
  let field ← d.fields? columnNames
  return {
    selector := ← orDefault "" (·.asText?) (field 0)
    label := ← orDefault "" (·.asText?) (field 1)
    format := ← orDefault .string (·.asName? formatNames) (field 2)
    pattern := ← orDefault none (·.asOption? (·.asText?)) (field 3) }

def columnTree (c : Column) : Json.Tree :=
  .object [
    ("selector", .string c.selector),
    ("alias", .string c.label),
    ("type", .string c.format.name),
    ("timestamp_pattern", (c.pattern.map .string).getD .null)]

def requestNames : List (List String) :=
  [["name"], ["content_type", "type"], ["parser"], ["columns"], ["root_selector", "root"], ["uql"],
    ["groq"], ["output_shape", "format"], ["csv_options"]]

def readRequest? (d : Document) : Option Request := do
  let field ← d.fields? requestNames
  return {
    name := ← orDefault "" (·.asText?) (field 0)
    contentType := ← orDefault .json
      (·.asName? (Payload.ContentType.all.map fun t => (t.name, t))) (field 1)
    engine := ← orDefault .simple (·.asName? (Engine.all.map fun e => (e.name, e))) (field 2)
    columns := ← orDefault [] (·.asList? readColumn?) (field 3)
    root := ← orDefault "" (·.asText?) (field 4)
    uql := ← orDefault "" (·.asText?) (field 5)
    groq := ← orDefault "" (·.asText?) (field 6)
    shape := ← orDefault .table (·.asName? shapeNames) (field 7)
    options := ← orDefault none (·.asOption? readOptions?) (field 8) }

def readDefaults? (d : Document) : Option Defaults := do
  let field ← d.fields? [["csv"], ["timestamp_pattern"]]
  return {
    options := ← orDefault .standard readOptions? (field 0)
    pattern := ← orDefault none (·.asOption? (·.asText?)) (field 1) }

def defaultsTree (d : Defaults) : Json.Tree :=
  .object [
    ("csv", optionsTree d.options),
    ("timestamp_pattern", (d.pattern.map .string).getD .null)]

end Tabulate.Settings
