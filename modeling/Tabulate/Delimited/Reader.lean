import Tabulate.Delimited.Quoting
import Tabulate.Journal
import Tabulate.Unicode.Case
import Tabulate.Value.Basic

/-! Reading delimited text into objects keyed by field names. -/
namespace Tabulate.Delimited

structure Options where
  delimiter : Char
  quote : Char
  comment : Option Char
  hasHeader : Bool
  /-- Field names that are used instead of a header record. -/
  headers : List String
  skipEmptyLines : Bool
  skipFaultyLines : Bool
  relaxColumnCount : Bool
deriving DecidableEq

namespace Options

def standard : Options := ⟨',', '"', none, true, [], false, false, false⟩

instance : Inhabited Options := ⟨standard⟩

def withTabs (o : Options) : Options := { o with delimiter := '\t' }

def ascii (c fallback : Char) : Char := if c.toNat < 128 then c else fallback

def dialect (o : Options) : Dialect :=
  ⟨ascii o.delimiter ',', ascii o.quote '"', o.comment.map (ascii · '#')⟩

end Options

inductive Fault
  | quoting (fault : QuotingFault)
  | columnCount (expected found : Nat)
deriving DecidableEq

def Fault.message : Fault → String
  | quoting fault => fault.message
  | columnCount expected found => s!"expected {expected} fields, found {found}"

structure LineError where
  line : Nat
  fault : Fault
deriving DecidableEq

inductive Fate
  | header
  | blank
  | faulty (error : LineError)
  | row (fields : Fields)

structure Progress where
  /-- The names of the fields, once they are known. -/
  names : Option (List String)
  headerPending : Bool

def Progress.start (o : Options) : Progress :=
  ⟨if o.headers.isEmpty then none else some o.headers, o.hasHeader⟩

def faultOf (o : Options) (p : Progress) (r : Record) : Option Fault :=
  match checkQuoting o.dialect r.raw with
  | .error fault => some (.quoting fault)
  | .ok () =>
    if p.headerPending || o.relaxColumnCount then none
    else
      match p.names with
      | some names =>
        if names.length = r.fields.length then none
        else some (.columnCount names.length r.fields.length)
      | none => none

/-- The fields of a row by name; a field without a name is named by its index. -/
def rowOf (names : Option (List String)) (fields : List String) : Fields :=
  Fields.ofList <| fields.zipIdx.map fun (text, i) =>
    ((names.bind (·[i]?)).getD s!"column_{i}", if text.isEmpty then .null else .string text)

def headerNames (r : Record) : List String :=
  r.fields.map fun text => String.ofList (Unicode.trim text.toList)

def Record.isBlank (r : Record) : Bool := r.fields.all (·.toList.all Unicode.isBlank)

def takeRecord (o : Options) (p : Progress) (r : Record) : Fate × Progress :=
  if o.skipEmptyLines && !p.headerPending && r.isBlank then (.blank, p)
  else
    match faultOf o p r with
    | some fault => (.faulty ⟨r.line, fault⟩, p)
    | none =>
      if p.headerPending then (.header, ⟨p.names.or (some (headerNames r)), false⟩)
      else (.row (rowOf p.names r.fields), p)

def LineError.warning (e : LineError) : String := s!"skipped CSV line {e.line}: {e.fault.message}"

/-- Reads records into rows. A faulty record is an error, or a warning if it may be skipped. -/
def readRecords (o : Options) : Progress → List Record → Reporting LineError (List Value)
  | _, [] => return []
  | p, r :: rest =>
    match takeRecord o p r with
    | (.header, p) | (.blank, p) => readRecords o p rest
    | (.faulty e, p) =>
      if o.skipFaultyLines then do
        Reporting.warn e.warning
        readRecords o p rest
      else throw e
    | (.row fields, p) => do return .object fields :: (← readRecords o p rest)

def read (o : Options) (text : String) : Reporting LineError Value := do
  let rows ← readRecords o (.start o) (records o.dialect text.toList)
  Reporting.debug .delimited s!"read {rows.length} CSV rows"
  return .array rows

end Tabulate.Delimited
