import Tabulate.Payload.Basic

/-! Reading payloads of every type into values. -/
namespace Tabulate.Payload

def lift {ε α : Type} (f : ε → Error) (x : Except ε α) : Reporting Error α :=
  match x with
  | .ok a => return a
  | .error e => throw (f e)

private def messageOf (error : Value) : String :=
  match error.get? "message" with
  | some (.string text) => text
  | _ => error.text

def responseErrors (response : Value) : List String :=
  match response.get? "errors" with
  | some (.array errors) => errors.map messageOf
  | _ => []

/-- Passes a response on. Its errors are warnings, unless there is no data beside them. -/
def checkResponse (response : Value) : Reporting Error Value := do
  let messages := responseErrors response
  if !messages.isEmpty && ((response.get? "data").getD .null).isNull then throw (.graphql messages)
  for message in messages do
    Reporting.warn s!"GraphQL error: {message}"
  return response

def readText (type : ContentType) (o : Delimited.Options) (text : String) : Reporting Error Value :=
  match type with
  | .json => lift .json (Json.read text)
  | .graphql => do checkResponse (← lift .json (Json.read text))
  | .csv => (Delimited.read o text).mapError .delimited
  | .tsv => (Delimited.read o.withTabs text).mapError .delimited
  | .xml => lift .markup (Markup.read .xml text)
  | .html => lift .markup (Markup.read .html text)
  | .yaml => lift .yaml (Yaml.read text)

def read (type : ContentType) (o : Delimited.Options) (bytes : List Nat) : Reporting Error Value := do
  readText type o (← lift .encoding (decodeText bytes))

/-- The type that a reader states for what it reads; text with tabs is a type of its own. -/
def readerType (type : ContentType) (o : Delimited.Options) : ContentType :=
  match type with
  | .csv => if o.delimiter = '\t' then .tsv else .csv
  | type => type

end Tabulate.Payload
