import Tabulate.Command.Help
import Tabulate.Command.Log
import Tabulate.Query.Run
import Tabulate.Settings.Config

/-! Running a command line: the configuration is read, the log is opened, and the task is done.
Files are reached through a record of two actions, so that a run can be looked at in any monad. -/
namespace Tabulate.Command

inductive FileFault
  | missing
  | isDirectory
  /-- A path that goes on after a file that is no directory. -/
  | notDirectory
  | notText
  | other (text : String)

def FileFault.message : FileFault → String
  | missing => "No such file or directory (os error 2)"
  | isDirectory => "Is a directory (os error 21)"
  | notDirectory => "Not a directory (os error 20)"
  | notText => "stream did not contain valid UTF-8"
  | other text => text

structure Files (m : Type → Type) where
  read : String → m (Except FileFault (List Nat))
  /-- Makes a file ready for more lines at its end. -/
  openLog : String → m (Except FileFault Unit)

structure Failure where
  message : String
  causes : List String

private def indent (width : Nat) (text : String) : String :=
  let margin := "\n" ++ String.ofList (List.replicate width ' ')
  margin.intercalate ((Text.splitAt ['\n'] text.toList).map String.ofList)

/-- A failure as it is printed; several causes are numbered. -/
def Failure.text (f : Failure) : String :=
  let causes := match f.causes with
    | [] => ""
    | [cause] => s!"\n\nCaused by:\n    {indent 4 cause}"
    | causes => "\n\nCaused by:" ++ String.join (causes.zipIdx.map fun ((cause, n) : String × Nat) =>
        s!"\n    {n}: {indent 7 cause}")
  s!"Error: {f.message}{causes}\n"

structure Outcome where
  code : Nat
  output : String
  /-- What is printed on the error output, apart from the log. -/
  errors : String
  log : Journal
  /-- The file that takes the log in place of the error output. -/
  logFile : Option String
  /-- The settings of a server that is to run from now on. -/
  serving : Option Settings.Config

inductive Done
  | printed (output : String)
  | serving (config : Settings.Config)

abbrev Result := Except Failure Done × Journal

def Result.outcome (r : Result) (level : Option Level) (logFile : Option String) : Outcome :=
  let log := r.2.upTo level
  match r.1 with
  | .ok (.printed output) => ⟨0, output, "", log, logFile, none⟩
  | .ok (.serving config) => ⟨0, "", "", log, logFile, some config⟩
  | .error failure => ⟨1, "", failure.text, log, logFile, none⟩

def Halt.outcome : Halt → Outcome
  | help verb => ⟨0, helpText verb, "", [], none, none⟩
  | version => ⟨0, Command.version ++ "\n", "", [], none, none⟩
  | misuse =>
    ⟨2, "", "error: unexpected arguments\n\nFor more information try --help\n", [], none, none⟩

section Server

inductive PortFault
  | empty
  | invalidDigit
  | tooLarge

def PortFault.message : PortFault → String
  | empty => "cannot parse integer from empty string"
  | invalidDigit => "invalid digit found in string"
  | tooLarge => "number too large to fit in target type"

private def readDigits (n : Nat) : List Char → Except PortFault Nat
  | [] => .ok n
  | c :: rest =>
    if !c.isDigit then .error .invalidDigit
    else
      let n := 10 * n + (c.toNat - 48)
      if twoTo 16 ≤ n then .error .tooLarge else readDigits n rest

def readPort (text : String) : Except PortFault Nat :=
  match text.toList with
  | [] => .error .empty
  | ['+'] => .error .invalidDigit
  | '+' :: digits => readDigits 0 digits
  | digits => readDigits 0 digits

/-- The settings for a server that is started with a host and a port of its own. -/
def serverConfig (config : Settings.Config) (host port : Option String) :
    Except Failure Settings.Config := do
  let port ← match port with
    | none => pure config.server.port
    | some text =>
      (readPort text).mapError fun fault => ⟨s!"invalid port '{text}'", [fault.message]⟩
  let server := { config.server with host := host.getD config.server.host, port := port }
  let config := { config with server := server }
  config.check.mapError fun fault => ⟨s!"configuration error: {fault.message}", []⟩
  return config

def serve (config : Settings.Config) (host port : Option String) : Result :=
  match serverConfig config host port with
  | .error failure => (.error failure, [])
  | .ok config =>
    let address := s!"{config.server.host}:{config.server.port}"
    (.ok (.serving config), [⟨.info, .command, s!"Starting server at {address}"⟩])

end Server

/-- The request of a query. The type of the payload is stated, or is that of its file. -/
def QueryTask.request (q : QueryTask) : Except Failure Query.Request := do
  let type ← match q.type with
    | some name =>
      match Payload.ContentType.ofName? name with
      | some type => pure type
      | none => throw ⟨s!"unknown payload type '{name}'", []⟩
    | none => pure (((Text.extension? q.input).bind Payload.ContentType.ofName?).getD default)
  let engine ← match Query.Engine.ofName? q.engine with
    | some engine => pure engine
    | none => throw ⟨s!"unknown parser '{q.engine}'", []⟩
  let columns ← q.columns.mapM fun text =>
    match Column.ofText? text with
    | some column => Except.ok column
    | none => .error ⟨s!"invalid column '{text}'", []⟩
  return { Query.Request.standard with
    contentType := type
    engine := engine
    columns := columns
    root := q.root
    uql := if engine = .uql then q.source else ""
    groq := if engine = .groq then q.source else ""
    shape := if q.asSeries then .series else .table }

section Run
variable {m : Type → Type} [Monad m]

def runQuery (files : Files m) (defaults : Query.Defaults) (q : QueryTask) : m Result := do
  match ← files.read q.input with
  | .error fault => return (.error ⟨s!"failed to read {q.input}", [fault.message]⟩, [])
  | .ok bytes =>
    match q.request with
    | .error failure => return (.error failure, [])
    | .ok request =>
      let (response, journal) := Query.respond defaults request (.bytes bytes)
      return ((response.map (.printed <| ·.toTree.pretty ++ "\n")).mapError (⟨·.message, []⟩), journal)

def runTask (files : Files m) (config : Settings.Config) : Task → m Result
  | .none => return (.ok (.printed "No subcommand specified. Use --help for usage information.\n"), [])
  | .server host port => return serve config host port
  | .query q => runQuery files config.defaults q

def loadConfig (files : Files m) : Option String → m (Except Failure Settings.Config)
  | none => return .ok .standard
  | some file => do
    let failed (causes : List String) := Except.error ⟨"failed to load configuration", causes⟩
    match ← files.read file with
    | .error fault => return failed [s!"I/O error: {fault.message}", fault.message]
    | .ok bytes =>
      match Utf8.decode bytes with
      | .error _ =>
        return failed [s!"I/O error: {FileFault.notText.message}", FileFault.notText.message]
      | .ok text =>
        match Settings.Config.ofFile file (String.ofList text) with
        | .error fault => return failed [s!"configuration error: {fault.message}"]
        | .ok config => return .ok config

def openLog (files : Files m) : Option String → m (Except Failure Unit)
  | none => return .ok ()
  | some file => do
    return (← files.openLog file).mapError fun fault =>
      ⟨s!"failed to open log file {file}", [fault.message]⟩

/-- Runs a command line. Before the log is open nothing is logged. -/
def run (files : Files m) (words : List String) : m Outcome := do
  match Invocation.ofWords words with
  | .error halt => return halt.outcome
  | .ok invocation =>
    match ← loadConfig files invocation.config with
    | .error failure => return Result.outcome (.error failure, []) none none
    | .ok config =>
      match ← openLog files config.logging.file with
      | .error failure => return Result.outcome (.error failure, []) none none
      | .ok _ =>
        return (← runTask files config invocation.task).outcome config.logLevel config.logging.file

end Run
end Tabulate.Command
