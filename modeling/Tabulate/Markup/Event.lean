import Tabulate.Markup.Attribute

/-! Splitting markup into tags and the texts between them, each with a byte offset. -/
namespace Tabulate.Markup

inductive Construct
  | element
  | comment
  | cdata
  | doctype
  | declaration
  | bang
deriving DecidableEq

def Construct.name : Construct → String
  | element => "Element"
  | comment => "Comment"
  | cdata => "CData"
  | doctype => "DOCTYPE"
  | declaration => "XmlDecl"
  | bang => "Bang"

inductive ScanFault
  | unfinished (construct : Construct)
  | unknownBang (found : Char)
  | emptyDoctype
deriving DecidableEq

def ScanFault.message : ScanFault → String
  | unfinished construct => s!"Unexpected EOF during reading {construct.name}"
  | unknownBang found =>
    "Only Comment (`--`), CDATA (`[CDATA[`) and DOCTYPE (`DOCTYPE`) nodes can start with a '!', " ++
      s!"but symbol `{found}` found"
  | emptyDoctype => "DOCTYPE declaration must not be empty"

inductive Event
  /-- The tag of an element that has content. -/
  | opening (tag : List Char)
  /-- The tag of an element without content. -/
  | empty (tag : List Char)
  | closing (content : List Char)
  | text (raw : List Char)
  /-- A text without references. -/
  | cdata (text : List Char)
  /-- A comment, a declaration or an instruction. -/
  | aside
  /-- The point from which a text cannot be read. -/
  | broken (fault : ScanFault)
deriving DecidableEq

/-- Splits after the first `>` before which the text, in reverse, meets a condition. -/
private def splitAfter? (complete : List Char → Bool) (seen : List Char) :
    List Char → Option (List Char × List Char)
  | [] => none
  | c :: rest =>
    if c = '>' && complete seen then some (seen.reverse, rest)
    else splitAfter? complete (c :: seen) rest

def splitTag? (quote : Option Char) (seen : List Char) :
    List Char → Option (List Char × List Char)
  | [] => none
  | c :: rest =>
    match quote with
    | some q => splitTag? (if c = q then none else quote) (c :: seen) rest
    | none =>
      if c = '>' then some (seen.reverse, rest)
      else splitTag? (if c = '"' ∨ c = '\'' then some c else none) (c :: seen) rest

private def startsAs (start : String) (text : List Char) : Bool :=
  (text.take start.length).map Char.toLower == start.toList.map Char.toLower

private def readBang (text : List Char) : Event × List Char :=
  match text with
  | [] => (.broken (.unfinished .bang), [])
  | '-' :: _ =>
    match splitAfter? (fun seen => ['-', '-'].isPrefixOf seen && 4 ≤ seen.length) [] text with
    | some (content, rest) =>
      if startsAs "--" content then (.aside, rest) else (.broken (.unfinished .comment), [])
    | none => (.broken (.unfinished .comment), [])
  | '[' :: _ =>
    match splitAfter? (fun seen => [']', ']'].isPrefixOf seen) [] text with
    | some (content, rest) =>
      if startsAs "[CDATA[" content then (.cdata ((content.drop 7).dropLast.dropLast), rest)
      else (.broken (.unfinished .cdata), [])
    | none => (.broken (.unfinished .cdata), [])
  | 'D' :: _ | 'd' :: _ =>
    match splitAfter? (fun seen => seen.count '<' == seen.count '>') [] text with
    | some (content, rest) =>
      if !startsAs "DOCTYPE" content then (.broken (.unfinished .doctype), [])
      else if (content.drop 7).all isSpace then (.broken .emptyDoctype, [])
      else (.aside, rest)
    | none => (.broken (.unfinished .doctype), [])
  | c :: _ => (.broken (.unknownBang (Utf8.lead c)), [])

def splitEnd (text : List Char) : List Char × List Char :=
  (text.takeWhile (· ≠ '>'), (text.dropWhile (· ≠ '>')).tail)

def trimEnd (text : List Char) : List Char := (text.reverse.dropWhile isSpace).reverse

/-- The name in a closing tag: white space may follow it, but not stand alone. -/
def closingName (content : List Char) : List Char :=
  if content.all isSpace then content else trimEnd content

/-- What a text after `<` begins with; a `<` at the end of a text begins nothing. -/
def readTag (text : List Char) : Option (Event × List Char) :=
  match text with
  | [] => none
  | '!' :: rest => some (readBang rest)
  | '/' :: rest =>
    let (content, rest) := splitEnd rest
    some (.closing content, rest)
  | '?' :: rest =>
    let (content, rest) := splitEnd rest
    if 2 ≤ content.length && content.getLast? = some '?' then some (.aside, rest)
    else some (.broken (.unfinished .declaration), [])
  | text =>
    match splitTag? none [] text with
    | none => some (.broken (.unfinished .element), [])
    | some (tag, rest) =>
      if tag.getLast? = some '/' then some (.empty tag.dropLast, rest)
      else some (.opening tag, rest)

/-- The event that a text begins with, and the text after it. White space around a text is
not part of it, and none without other characters is an event. -/
def next? (text : List Char) : Option (Event × List Char) :=
  match text.dropWhile isSpace with
  | [] => none
  | '<' :: rest => readTag rest
  | text => some (.text (trimEnd (text.takeWhile (· ≠ '<'))), text.dropWhile (· ≠ '<'))

/-- An event and the byte offset that the text before it ends at. -/
structure Mark where
  position : Nat
  event : Event
deriving DecidableEq

def marksFrom : Nat → Nat → List Char → List Mark
  | 0, _, _ => []
  | fuel + 1, position, text =>
    match next? text with
    | none => []
    | some (event, rest) =>
      ⟨position, event⟩ ::
        marksFrom fuel (position + byteCount (text.take (text.length - rest.length))) rest

/-- The events of a text. A byte order mark at the start takes no room. -/
def marks (text : List Char) : List Mark := marksFrom text.length 0 (withoutMark text)

end Tabulate.Markup
