import Tabulate.Markup.Escape
import Tabulate.Markup.Event
import Tabulate.Unicode.Case
import Tabulate.Value.Basic

/-! Reading markup into a value: an object of attributes, children by tag, and text. -/
namespace Tabulate.Markup

inductive Fault
  | scan (fault : ScanFault)
  | inTag (fault : AttributeFault)
  | escape (fault : EscapeFault)
  | mismatch (expected found : String)
  | unclosed (name : String)
deriving DecidableEq

def Fault.message : Fault → String
  | scan fault => fault.message
  | inTag fault => fault.message
  | escape fault => fault.message
  | mismatch expected found => s!"Expecting </{expected}> found </{found}>"
  | unclosed name => s!"unclosed element <{name}>"

structure SyntaxError where
  position : Nat
  fault : Fault
deriving DecidableEq

/-- An element whose end is not yet read. -/
structure Element where
  name : String
  fields : Fields
  text : String

namespace Element

/-- Adds a text, after a space if there is one before it; blank ones add nothing. -/
def addText (e : Element) (text : List Char) : Element :=
  match Unicode.trim text with
  | [] => e
  | text =>
    { e with text := if e.text.isEmpty then String.ofList text else e.text ++ " " ++ String.ofList text }

/-- The value of an element: its text alone, or an object. -/
def value (e : Element) : Value :=
  if e.fields.isEmpty then .string e.text
  else if e.text.isEmpty then .object e.fields
  else .object (Fields.insert e.fields "#text" (.string e.text))

/-- A value beside those of the same tag before it: more than one make an array. -/
def beside : Option Value → Value → Value
  | none, v => v
  | some (.array items), v => .array (items ++ [v])
  | some first, v => .array [first, v]

/-- Adds a child. Children with one tag make an array. -/
def addChild (e child : Element) : Element :=
  let value := beside (Fields.get? e.fields child.name) child.value
  { e with fields := Fields.insert e.fields child.name value }

end Element

/-- The elements that are open around a place, from the innermost one to the document. -/
structure Opened where
  top : Element
  below : List Element

namespace Opened

def document : Opened := ⟨⟨"", [], ""⟩, []⟩

def addText (s : Opened) (text : List Char) : Opened := { s with top := s.top.addText text }

def attach (s : Opened) (child : Element) : Opened := { s with top := s.top.addChild child }

def push (s : Opened) (e : Element) : Opened := ⟨e, s.top :: s.below⟩

/-- Closes all elements up to one of a name; absent if none is open. -/
def closeThrough? (name : String) : Element → List Element → Option Opened
  | _, [] => none
  | top, parent :: below =>
    if top.name = name then some ⟨parent.addChild top, below⟩
    else closeThrough? name (parent.addChild top) below

def closeAll : Element → List Element → Element
  | top, [] => top
  | top, parent :: below => closeAll (parent.addChild top) below

end Opened

def voidElements : List String :=
  ["area", "base", "br", "col", "embed", "hr", "img", "input", "link", "meta", "param", "source",
    "track", "wbr"]

def nameOf (language : Language) (name : List Char) : String :=
  match language with
  | .xml => String.ofList name
  | .html => Unicode.lower (String.ofList name)

/-- The text that a raw one stands for; in HTML one with a faulty reference stands for itself. -/
def textOf (language : Language) (raw : List Char) : Except Fault (List Char) :=
  match unescape raw, language with
  | .ok text, _ => .ok text
  | .error _, .html => .ok raw
  | .error fault, .xml => .error (.escape fault)

def elementOf (language : Language) (tag : List Char) : Except Fault Element := do
  let (name, content) := splitName tag
  let (before, fault) := attributes language content
  let fields ← before.foldlM (fun fields a => do
    let value ← textOf language a.value
    return Fields.insert fields ("@" ++ nameOf language a.key) (.string (String.ofList value)))
    ([] : Fields)
  match fault with
  | some fault => throw (.inTag fault)
  | none => return ⟨nameOf language name, fields, ""⟩

/-- Takes in a closing tag. In HTML it closes all elements up to the one that it names, and is
passed over if there is none. -/
def close (language : Language) (s : Opened) (content : List Char) : Except Fault Opened :=
  let name := nameOf language (closingName content)
  match language, s.below with
  | .html, below => .ok ((Opened.closeThrough? name s.top below).getD s)
  | .xml, [] => .error (.mismatch "" (String.ofList content))
  | .xml, parent :: below =>
    if s.top.name = name then .ok ⟨parent.addChild s.top, below⟩
    else .error (.mismatch s.top.name name)

def takeEvent (language : Language) (s : Opened) : Event → Except Fault Opened
  | .opening tag => do
    let e ← elementOf language tag
    return if language = .html ∧ e.name ∈ voidElements then s.attach e else s.push e
  | .empty tag => return s.attach (← elementOf language tag)
  | .closing content => close language s content
  | .text raw => return s.addText (← textOf language raw)
  | .cdata text => .ok (s.addText text)
  | .aside => .ok s
  | .broken fault => .error (.scan fault)

/-- Takes in the events of a text; a fault lies at the position of its event. -/
def assemble (language : Language) (ms : List Mark) : Except SyntaxError Opened :=
  ms.foldlM (fun s m => (takeEvent language s m.event).mapError (⟨m.position, ·⟩)) .document

def read (language : Language) (text : String) : Except SyntaxError Value := do
  let s ← assemble language (marks text.toList)
  match language, s.below with
  | .xml, _ :: _ => throw ⟨byteCount text.toList, .unclosed s.top.name⟩
  | _, below => return .object (Opened.closeAll s.top below).fields

end Tabulate.Markup
