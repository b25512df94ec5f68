import Tabulate.Json.Reader
import Tabulate.Journal
import Tabulate.Settings.Request
import Tabulate.Text.FileName

/-! The configuration of the program, read from a JSON or a YAML file. -/
namespace Tabulate.Settings

inductive Fault
  | json (error : Json.SyntaxError)
  | yaml (fault : Yaml.Fault)
  /-- A document of another form than expected. -/
  | malformed
  | unsupported (file : String)
  | blank (name : String)
  | outOfRange (name : String) (least greatest : Number)

def Fault.message : Fault → String
  | json e => e.message
  | yaml fault => fault.message
  | malformed => "invalid value for a setting"
  | unsupported file => s!"unsupported config file format: {file}"
  | blank name => s!"'{name}' cannot be empty"
  | outOfRange name least greatest =>
    s!"'{name}' must be between {least.positional} and {greatest.positional}"

def checkNotBlank (name text : String) : Except Fault Unit :=
  if text.toList.all Unicode.isBlank then .error (.blank name) else .ok ()

def checkRange (name : String) (n least greatest : Number) : Except Fault Unit :=
  if n.less least || greatest.less n then .error (.outOfRange name least greatest) else .ok ()

structure Server where
  host : String
  port : Nat
  workers : Option Nat
  enableCors : Bool
  /-- The size of the largest body that is accepted, in bytes. -/
  maxPayload : Nat

structure Logging where
  level : String
  /-- A file that takes the log in place of the error output. -/
  file : Option String

structure Config where
  server : Server
  logging : Logging
  defaults : Query.Defaults

def Server.standard : Server := ⟨"127.0.0.1", 8080, none, false, 16 * 1024 * 1024⟩

def Logging.standard : Logging := ⟨"info", none⟩

def Config.standard : Config := ⟨.standard, .standard, .standard⟩

instance : Inhabited Config := ⟨.standard⟩

private def readServer? (d : Document) : Option Server := do
  let field ← d.fields? [["host"], ["port"], ["workers"], ["enable_cors"], ["max_payload_bytes"]]
  let standard := Server.standard
  return {
    host := ← orDefault standard.host (·.asText?) (field 0)
    port := ← orDefault standard.port (·.asWord? 16) (field 1)
    workers := ← orDefault standard.workers (·.asOption? (·.asWord? 64)) (field 2)
    enableCors := ← orDefault standard.enableCors (·.asBool?) (field 3)
    maxPayload := ← orDefault standard.maxPayload (·.asWord? 64) (field 4) }

private def readLogging? (d : Document) : Option Logging := do
  let field ← d.fields? [["level"], ["file"]]
  return {
    level := ← orDefault Logging.standard.level (·.asText?) (field 0)
    file := ← orDefault none (·.asOption? (·.asText?)) (field 1) }

def readConfig? (d : Document) : Option Config := do
  let field ← d.fields? [["server"], ["logging"], ["engine"]]
  return {
    server := ← orDefault .standard readServer? (field 0)
    logging := ← orDefault .standard readLogging? (field 1)
    defaults := ← orDefault .standard readDefaults? (field 2) }

private def textOrNull (text : Option String) : Json.Tree := (text.map .string).getD .null

def configTree (c : Config) : Json.Tree :=
  .object [
    ("server", .object [
      ("host", .string c.server.host),
      ("port", .ofNat c.server.port),
      ("workers", (c.server.workers.map .ofNat).getD .null),
      ("enable_cors", .bool c.server.enableCors),
      ("max_payload_bytes", .ofNat c.server.maxPayload)]),
    ("logging", .object [("level", .string c.logging.level), ("file", textOrNull c.logging.file)]),
    ("engine", defaultsTree c.defaults)]

namespace Config

def check (c : Config) : Except Fault Unit := do
  checkNotBlank "server.host" c.server.host
  match c.server.workers with
  | some n => checkRange "server.workers" (Number.ofNat n) 1 1024
  | none => return ()

private def readDocument (file text : String) : Except Fault Document :=
  match (Text.extension? file).map Unicode.lower with
  | some "json" => ((Json.Tree.read text).map Document.ofTree).mapError .json
  | some "yaml" | some "yml" => ((Yaml.Node.read text).map Document.ofNode).mapError .yaml
  | _ => .error (.unsupported file)

def ofFile (file text : String) : Except Fault Config := do
  match readConfig? (← readDocument file text) with
  | none => throw .malformed
  | some c =>
    c.check
    return c

def logLevel (c : Config) : Option Level :=
  match Unicode.lower c.logging.level with
  | "off" => none
  | "error" => some .error
  | "warn" => some .warn
  | "debug" => some .debug
  | "trace" => some .trace
  | _ => some .info

end Config
end Tabulate.Settings
