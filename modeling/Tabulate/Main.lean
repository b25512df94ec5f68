import Std.Http
import Std.Time
import Tabulate.Command.Run
import Tabulate.Service.Reply

/-! The program: the files, the clock, the standard streams and the network behind its tasks. -/
namespace Tabulate
open Std.Async Std.Http

private def faultOf : IO.Error → Command.FileFault
  | .noFileOrDirectory .. => .missing
  | .inappropriateType _ code _ =>
    if code = 21 then .isDirectory else .notDirectory
  | e => .other (toString e)

private def attempted {α : Type} (action : IO α) : IO (Except Command.FileFault α) :=
  try return .ok (← action)
  catch e => return .error (faultOf e)

private def files : Command.Files IO where
  read path := attempted do
    return (← IO.FS.readBinFile path).toList.map UInt8.toNat
  openLog path := attempted do
    let _ ← IO.FS.Handle.mk path .append

private def writeLog (file : Option String) (log : Journal) : IO Unit := do
  if log.isEmpty then return
  let time := (← Std.Time.PlainDateTime.now).format "uuuu-MM-dd HH:mm:ss"
  match file with
  | none => log.forM fun r => IO.eprintln s!"[{time}] {r.terminalLine}"
  | some file =>
    let handle ← IO.FS.Handle.mk file .append
    log.forM fun r => handle.putStrLn s!"[{time}] {r.fileLine}"

private def callOf (head : Request.Head) (body : ByteArray) : Service.Call where
  method := toString head.method
  target := toString head.uri
  mediaType := (head.headers.get? Header.Name.contentType).map (·.value)
  body := (String.fromUTF8? body).getD ""

private structure Responder where
  config : Settings.Config

private instance : Server.Handler Responder where
  onRequest r request := do
    let body : ByteArray ← request.body.readAll
    let (reply, journal) := Service.reply r.config.defaults r.config.server.maxPayload
      (callOf request.line body)
    writeLog r.config.logging.file (journal.upTo r.config.logLevel)
    let status := (Status.ofCode none reply.status.toUInt16).getD .internalServerError
    let response := Response.new.status status
    if reply.body.isEmpty then return ← response.text ""
    return ← response.json reply.body

private def listen (config : Settings.Config) : IO Unit := do
  let host := if config.server.host = "localhost" then "127.0.0.1" else config.server.host
  let address : Std.Net.SocketAddress ← match Std.Net.IPv4Addr.ofString host with
    | some address => pure (.v4 ⟨address, config.server.port.toUInt16⟩)
    | none => match Std.Net.IPv6Addr.ofString host with
      | some address => pure (.v6 ⟨address, config.server.port.toUInt16⟩)
      | none => throw (.userError "failed to lookup address information")
  Async.block do
    let server ← Server.serve address (Responder.mk config)
    server.waitShutdown

end Tabulate

open Tabulate

def main (args : List String) : IO UInt32 := do
  let outcome ← Command.run files args
  writeLog outcome.logFile outcome.log
  IO.print outcome.output
  IO.eprint outcome.errors
  match outcome.serving with
  | none => return outcome.code.toUInt32
  | some config =>
    try
      listen config
      return 0
    catch e =>
      IO.eprint (Command.Failure.text ⟨toString e, []⟩)
      return 1
