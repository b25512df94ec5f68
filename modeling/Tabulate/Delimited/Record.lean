/-! Splitting delimited text into records. A record ends at a line feed or a carriage return
outside quotes; a quote that opens a field hides delimiters and line ends, and two quotes in
it stand for one. -/
namespace Tabulate.Delimited

structure Dialect where
  delimiter : Char
  quote : Char
  comment : Option Char
deriving DecidableEq

inductive Place
  | recordStart
  | fieldStart
  | bare
  | quoted
  | afterQuote
  | comment
  | afterReturn
deriving DecidableEq

/-- What a character does: it is passed over, it belongs to the field, or it ends the field
or the record. -/
inductive Action
  | skip (next : Place)
  | take (next : Place)
  | endField
  | endRecord

namespace Dialect

def inField (d : Dialect) (c : Char) : Action :=
  if c = d.delimiter then .endField
  else if c = '\n' ∨ c = '\r' then .endRecord
  else .take .bare

def atField (d : Dialect) (c : Char) : Action :=
  if c = d.quote then .skip .quoted else d.inField c

/-- A character that may start a record; blank lines and comments come before it. -/
def atRecord (d : Dialect) (c : Char) : Action :=
  if c = '\n' ∨ c = '\r' then .skip .recordStart
  else if d.comment = some c then .skip .comment
  else d.atField c

def step (d : Dialect) (place : Place) (c : Char) : Action :=
  match place with
  | .recordStart => d.atRecord c
  | .fieldStart => d.atField c
  | .bare => d.inField c
  | .quoted => if c = d.quote then .skip .afterQuote else .take .quoted
  | .afterQuote => if c = d.quote then .take .quoted else d.inField c
  | .comment => .skip (if c = '\n' then .recordStart else .comment)
  | .afterReturn => if c = '\n' then .skip .recordStart else d.atRecord c

end Dialect

/-- A record, the text after it, and whether a line feed there still belongs to it. -/
structure Scanned where
  fields : List String
  rest : List Char
  endsInReturn : Bool

def close (field : List Char) (fields : List String) : List String :=
  String.ofList field.reverse :: fields

/-- Scans one record, with the field and the fields read so far in reverse; absent if the
text ends before one begins. -/
def scanFrom (d : Dialect) : Place → List Char → List String → List Char → Option Scanned
  | .recordStart, _, _, [] | .afterReturn, _, _, [] => none
  | _, field, fields, [] => some ⟨(close field fields).reverse, [], false⟩
  | place, field, fields, c :: rest =>
    match d.step place c with
    | .skip next => scanFrom d next field fields rest
    | .take next => scanFrom d next (c :: field) fields rest
    | .endField => scanFrom d .fieldStart [] (close field fields) rest
    | .endRecord => some ⟨(close field fields).reverse, rest, c = '\r'⟩

/-- The next record of a text; `afterReturn` says that a carriage return ended the last one. -/
def scan? (d : Dialect) (afterReturn : Bool) (text : List Char) : Option Scanned :=
  scanFrom d (if afterReturn then .afterReturn else .recordStart) [] [] text

/-- A record with its place: the line that it is read from, and the text read for it. -/
structure Record where
  line : Nat
  fields : List String
  raw : List Char

def recordsFrom (d : Dialect) : Nat → Nat → Bool → List Char → List Char → List Record
  | 0, _, _, _, _ => []
  | fuel + 1, line, afterReturn, mark, text =>
    match scan? d afterReturn text with
    | none => []
    | some s =>
      let read := text.take (text.length - s.rest.length)
      ⟨line, s.fields, mark ++ read⟩
        :: recordsFrom d fuel (line + read.count '\n') s.endsInReturn [] s.rest

/-- The records of a text. A byte order mark at the start belongs to no field. -/
def records (d : Dialect) (text : List Char) : List Record :=
  let (mark, text) := match text with
    | c :: rest => if c.toNat = 0xfeff then ([c], rest) else ([], text)
    | [] => ([], [])
  recordsFrom d (text.length + 1) 1 false mark text

end Tabulate.Delimited
