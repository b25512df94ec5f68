/-! Media types: which header fields declare JSON. -/
namespace Tabulate.Service

/-- A media type in lower case, such as `application/vnd.api+json`, without its parameters. -/
structure MediaType where
  type : String
  subtype : String
  /-- What follows the last plus sign. -/
  suffix : Option String

namespace MediaType

private def isTokenChar (c : Char) : Bool :=
  c.isAlphanum || "!#$%&'*+-.^_\x60|~".toList.contains c

private def isQuotedChar (c : Char) : Bool := 32 ≤ c.toNat && c.toNat < 127

/-- What follows a quoted value: blanks, and then the end or a semicolon. -/
private def afterQuoted? (text : List Char) : Option (List Char) :=
  match text.dropWhile (· = ' ') with
  | [] => some []
  | ';' :: rest => some rest
  | _ => none

/-- What follows the value of a parameter and the semicolon after it. A quoted value has at
least one character. -/
private def afterValue? : List Char → Option (List Char)
  | '"' :: c :: text =>
    match text.dropWhile (fun c => isQuotedChar c && c ≠ '"') with
    | '"' :: rest => if isQuotedChar c then afterQuoted? rest else none
    | _ => none
  | text =>
    match text.dropWhile isTokenChar with
    | [] => some []
    | ';' :: rest => if text.head? = some ';' then none else some rest
    | _ => none

/-- Whether a text is a list of parameters, each a name, an equals sign and a value. -/
private def areParameters : Nat → List Char → Bool
  | 0, _ => false
  | fuel + 1, text =>
    match text.dropWhile (· = ' ') with
    | [] => true
    | text =>
      match text.dropWhile isTokenChar with
      | '=' :: value =>
        !(text.takeWhile isTokenChar).isEmpty
          && (match afterValue? value with
            | some rest => areParameters fuel rest
            | none => false)
      | _ => false

/-- The subtype and the suffix of a name that holds one behind its first character. -/
private def splitSuffix (name : List Char) : List Char × Option (List Char) :=
  let suffix := (name.reverse.takeWhile (· ≠ '+')).reverse
  let before := name.take (name.length - suffix.length - 1)
  if before.isEmpty then (name, none) else (before, some suffix)

/-- The media type in a header field; none if the field is malformed. -/
def ofField? (text : String) : Option MediaType :=
  let type := text.toList.takeWhile isTokenChar
  match text.toList.dropWhile isTokenChar with
  | '/' :: rest =>
    let name := rest.takeWhile isTokenChar
    let parameters := rest.dropWhile isTokenChar
    let lower := fun (part : List Char) => String.ofList (part.map Char.toLower)
    let (subtype, suffix) := splitSuffix name
    let isWellFormed := !type.isEmpty && match parameters with
      | [] => true
      | ';' :: rest => !name.isEmpty && areParameters (rest.length + 1) rest
      | _ => false
    if isWellFormed then some ⟨lower type, lower subtype, suffix.map lower⟩ else none
  | _ => none

def isJson (t : MediaType) : Bool := t.subtype = "json" || t.suffix = some "json"

end MediaType
end Tabulate.Service
