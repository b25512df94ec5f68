import Tabulate.Query.Run
import Tabulate.Service.MediaType
import Tabulate.Settings.Request

/-! The replies of the service: calls are told apart by method and path, and a query call
carries its request and payload in a JSON body. -/
namespace Tabulate.Service

structure Call where
  method : String
  /-- A path, with what may follow a question mark, and the host that may stand in front. -/
  target : String
  /-- The header field that states the type of the body. -/
  mediaType : Option String
  body : String

structure Reply where
  status : Nat
  body : String
deriving DecidableEq

inductive Fault
  | mediaType
  | tooLarge (size limit : Nat)
  | syntaxError (error : Json.SyntaxError)
  /-- A body of another form than expected. -/
  | malformed
  | query (error : Query.Error)

def Fault.message : Fault → String
  | mediaType => "bad request: Content type error"
  | tooLarge size limit =>
    s!"bad request: JSON payload ({size} bytes) is larger than allowed (limit: {limit} bytes)."
  | syntaxError e => s!"bad request: Json deserialize error: {e.message}"
  | malformed => "bad request: Json deserialize error: not a query"
  | query e => e.message

private def hexValue? (c : Char) : Option Nat :=
  if c.isDigit then some (c.toNat - 48)
  else if 'a' ≤ c.toLower ∧ c.toLower ≤ 'f' then some (c.toLower.toNat - 87)
  else none

/-- A path with its escapes resolved, except those of a percent sign, a slash and a plus sign. -/
def unescapePath : List Char → List Char
  | [] => []
  | '%' :: a :: b :: rest =>
    match hexValue? a, hexValue? b with
    | some high, some low =>
      let c := Char.ofNat (16 * high + low)
      if ['%', '/', '+'].contains c then '%' :: unescapePath (a :: b :: rest)
      else c :: unescapePath rest
    | _, _ => '%' :: unescapePath (a :: b :: rest)
  | c :: rest => c :: unescapePath rest
termination_by text => text.length

def Call.path (c : Call) : String :=
  let text := c.target.toList
  let absolute := match text.dropWhile Char.isAlphanum with
    | ':' :: '/' :: '/' :: rest => rest.dropWhile (· ≠ '/')
    | _ => text
  String.ofList (unescapePath (absolute.takeWhile fun c => c ≠ '?' && c ≠ '#'))

/-- What a body asks for: a request, and a payload that is text or a value. -/
def readBody? (body : Json.Tree) : Option (Query.Request × Query.Input) := do
  let field ← (Settings.Document.ofTree body).fields? [["query"], ["payload"]]
  let request ← (field 0).bind Settings.readRequest?
  let payload := match body with
    | .object fields => List.lookup "payload" fields
    | .array items => items[1]?
    | _ => none
  return (request, match payload with
    | some (.string text) => .text text
    | some t => .value t.toValue
    | none => .value .null)

def answer (defaults : Query.Defaults) (limit : Nat) (c : Call) : Reporting Fault Query.Response := do
  if !((c.mediaType.bind MediaType.ofField?).any (·.isJson)) then throw .mediaType
  let size := byteCount c.body.toList
  if limit < size then throw (.tooLarge size limit)
  match (Json.Tree.read c.body).map readBody? with
  | .error e => throw (.syntaxError e)
  | .ok none => throw .malformed
  | .ok (some (request, input)) =>
    Reporting.debug .service
      s!"query request: parser {request.engine.title}, shape {request.shape.title}"
    let (result, journal) := Query.respond defaults request input
    modify (· ++ journal)
    match result with
    | .error e => throw (.query e)
    | .ok r =>
      if !r.warnings.isEmpty then
        Reporting.report ⟨.info, .service, s!"query finished with {r.warnings.length} warning(s)"⟩
      return r

def version : String := "0.1.0"

def reply (defaults : Query.Defaults) (limit : Nat) (c : Call) : Reply × Journal :=
  match c.method, c.path with
  | "GET", "/api/v1/health" =>
    (⟨200, (Json.Tree.object [("status", .string "ok"), ("version", .string version)]).text⟩, [])
  | "POST", "/api/v1/query" =>
    match (answer defaults limit c).outcome with
    | (.ok r, journal) => (⟨200, r.toTree.text⟩, journal)
    | (.error f, journal) => (⟨400, (Json.Tree.object [("error", .string f.message)]).text⟩, journal)
  | _, _ => (⟨404, ""⟩, [])

end Tabulate.Service
