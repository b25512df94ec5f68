import Tabulate.Delimited.Reader
import Tabulate.Json.Reader
import Tabulate.Markup.Tree
import Tabulate.Text.Split
import Tabulate.Yaml.Datum

/-! Payloads: the forms in which data arrives, and what may be wrong with it. -/
namespace Tabulate.Payload

inductive ContentType
  | json
  | csv
  | tsv
  | xml
  | html
  | graphql
  | yaml
deriving DecidableEq, Inhabited

namespace ContentType

def all : List ContentType := [json, csv, tsv, xml, html, graphql, yaml]

def name : ContentType → String
  | json => "json"
  | csv => "csv"
  | tsv => "tsv"
  | xml => "xml"
  | html => "html"
  | graphql => "graphql"
  | yaml => "yaml"

def title : ContentType → String
  | json => "Json"
  | csv => "Csv"
  | tsv => "Tsv"
  | xml => "Xml"
  | html => "Html"
  | graphql => "GraphQl"
  | yaml => "Yaml"

def ofName? (text : String) : Option ContentType :=
  let name := (Unicode.lower (String.ofList (Unicode.trim text.toList))).toList
  match String.ofList ((Text.splitAt ['/'] name).getLastD []) with
  | "json" => some json
  | "csv" => some csv
  | "tsv" | "tab-separated-values" => some tsv
  | "xml" => some xml
  | "html" => some html
  | "graphql" => some graphql
  | "yaml" | "yml" | "x-yaml" => some yaml
  | _ => none

end ContentType

inductive Error
  | json (error : Json.SyntaxError)
  | delimited (error : Delimited.LineError)
  | markup (error : Markup.SyntaxError)
  | yaml (fault : Yaml.Fault)
  /-- The messages of a response that holds errors and no data. -/
  | graphql (messages : List String)
  | encoding (error : EncodingError)

def Error.message : Error → String
  | json e => s!"JSON syntax error at offset {e.offset}: {e.message}"
  | delimited e => s!"CSV error at line {e.line}: {e.fault.message}"
  | markup e => s!"XML error at position {e.position}: {e.fault.message}"
  | yaml fault => s!"YAML error: {fault.message}"
  | graphql messages => "GraphQL response error: " ++ "; ".intercalate messages
  | encoding e => s!"payload is not valid UTF-8: {e.message}"

end Tabulate.Payload
