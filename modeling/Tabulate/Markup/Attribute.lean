import Tabulate.Text.Utf8

/-! The attributes of a tag. -/
namespace Tabulate.Markup

inductive Language
  | xml
  | html
deriving DecidableEq

def isSpace (c : Char) : Bool := c = ' ' || c = '\t' || c = '\r' || c = '\n'

/-- What is wrong with an attribute, with byte offsets within the tag. -/
inductive AttributeFault
  | noEquals (position : Nat)
  | noValue (position : Nat)
  | unquoted (position : Nat)
  | unclosed (position : Nat) (quote : Char)
  | repeated (position first : Nat)
deriving DecidableEq

def AttributeFault.message : AttributeFault → String
  | noEquals position =>
    s!"position {position}: attribute key must be directly followed by `=` or space"
  | noValue position => s!"position {position}: `=` must be followed by an attribute value"
  | unquoted position =>
    s!"position {position}: attribute value must be enclosed in `\"` or `'`"
  | unclosed position quote =>
    s!"position {position}: missing closing quote `{quote}` in attribute value"
  | repeated position first =>
    s!"position {position}: duplicated attribute, previous declaration at position {first}"

/-- An attribute as it is written, with its byte offset. -/
structure Attribute where
  key : List Char
  value : List Char
  position : Nat
deriving DecidableEq

structure Content where
  position : Nat
  text : List Char

namespace Content

def splitBefore (stop : Char → Bool) (c : Content) : List Char × Content :=
  let taken := c.text.takeWhile (!stop ·)
  (taken, ⟨c.position + byteCount taken, c.text.dropWhile (!stop ·)⟩)

def skipSpace (c : Content) : Content := (c.splitBefore (!isSpace ·)).2

def tail (c : Content) : Content := ⟨c.position + 1, c.text.tail⟩

def readValue (language : Language) (c : Content) :
    Except AttributeFault (List Char × Content) :=
  let c := c.skipSpace
  match c.text, language with
  | [], _ => .error (.noValue c.position)
  | first :: _, language =>
    if first = '"' ∨ first = '\'' then
      let (value, after) := c.tail.splitBefore (· = first)
      if after.text.isEmpty then .error (.unclosed after.position first)
      else .ok (value, after.tail)
    else
      match language with
      | .xml => .error (.unquoted c.position)
      | .html => .ok (c.splitBefore isSpace)

/-- The attribute that a content begins with; its key may hold any first character. The test
for a repeated key comes before its value is read. -/
def readAttribute (language : Language) (isNew : Attribute → Except AttributeFault Unit)
    (first : Char) (c : Content) : Except AttributeFault (Attribute × Content) := do
  let (more, after) := Content.splitBefore (fun c => c = '=' || isSpace c)
    ⟨c.position + first.utf8Size, c.text.tail⟩
  let key : Attribute := ⟨first :: more, [], c.position⟩
  let after := after.skipSpace
  match after.text, language with
  | '=' :: _, language =>
    isNew key
    let (value, rest) ← readValue language after.tail
    return ({ key with value := value }, rest)
  | _, .html =>
    isNew key
    return (key, after)
  | _, .xml => throw (.noEquals after.position)

def checkNew (before : List Attribute) (a : Attribute) : Except AttributeFault Unit :=
  match before.find? (·.key = a.key) with
  | some earlier => .error (.repeated a.position earlier.position)
  | none => .ok ()

/-- The attributes of a content, after those already read: the ones before a fault, and the
fault. -/
def readAll (language : Language) : Nat → List Attribute → Content →
    List Attribute × Option AttributeFault
  | 0, before, _ => (before.reverse, none)
  | fuel + 1, before, c =>
    let c := c.skipSpace
    match c.text with
    | [] => (before.reverse, none)
    | first :: _ =>
      match readAttribute language (checkNew before) first c with
      | .error fault => (before.reverse, some fault)
      | .ok (a, rest) => readAll language fuel (a :: before) rest

end Content

/-- The content of a tag: its name, and where its attributes begin. -/
def splitName (tag : List Char) : List Char × Content := Content.splitBefore isSpace ⟨0, tag⟩

def attributes (language : Language) (c : Content) : List Attribute × Option AttributeFault :=
  c.readAll language (c.text.length + 1) []

end Tabulate.Markup
