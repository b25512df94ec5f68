import Tabulate.Frame.Column
import Tabulate.Payload.Basic

/-! What is asked of a payload: how it is read, which rows are taken, and what they become. -/
namespace Tabulate.Query

inductive Engine
  | simple
  | backend
  | uql
  | groq
deriving DecidableEq, Inhabited

namespace Engine

def all : List Engine := [simple, backend, uql, groq]

def name : Engine → String
  | simple => "simple"
  | backend => "backend"
  | uql => "uql"
  | groq => "groq"

def title : Engine → String
  | simple => "Simple"
  | backend => "Backend"
  | uql => "Uql"
  | groq => "Groq"

def ofName? (text : String) : Option Engine := all.find? (·.name == text)

end Engine

inductive Shape
  | table
  | series
deriving DecidableEq, Inhabited

def Shape.title : Shape → String
  | table => "Table"
  | series => "Timeseries"

structure Request where
  name : String
  contentType : Payload.ContentType
  engine : Engine
  columns : List Column
  /-- Selects the part of the payload that holds the rows. -/
  root : String
  uql : String
  groq : String
  shape : Shape
  options : Option Delimited.Options

namespace Request

def standard : Request := ⟨"", .json, .simple, [], "", "", "", .table, none⟩

instance : Inhabited Request := ⟨standard⟩

end Request

structure Defaults where
  options : Delimited.Options
  pattern : Option String

namespace Defaults

def standard : Defaults := ⟨.standard, none⟩

instance : Inhabited Defaults := ⟨standard⟩

end Defaults

inductive RequestFault
  | noQueryText (language : String)
  | columns (fault : ColumnFault)
deriving DecidableEq

def RequestFault.message : RequestFault → String
  | noQueryText language => s!"the {language} parser needs query text"
  | columns fault => fault.message

def checkQueryText (language source : String) : Except RequestFault Unit :=
  if source.toList.all Unicode.isBlank then .error (.noQueryText language) else .ok ()

def Request.check (r : Request) : Except RequestFault Unit := do
  match r.engine with
  | .uql => checkQueryText "uql" r.uql
  | .groq => checkQueryText "groq" r.groq
  | .simple | .backend => .ok ()
  (checkColumns (r.shape = .series) r.columns).mapError .columns

end Tabulate.Query
