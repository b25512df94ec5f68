import Tabulate.Command.Arguments

/-! What the command line prints about itself. -/
namespace Tabulate.Command

def title : String := "Rust Data Transformation Engine"

def programName : String := "rust-data-transformation-engine"

def version : String := title ++ " 0.1.0"

private def padTo (width : Nat) (text : String) : String :=
  text ++ String.ofList (List.replicate (width - text.length) ' ')

private def Switch.usage (s : Switch) : String :=
  let letter := match s.letter with
    | some c => s!"-{c}, "
    | none => "    "
  s!"{letter}--{s.long}" ++ ((s.value.map (s!" <{·}>")).getD "")

private def rows (entries : List (String × String)) : String :=
  let width := (entries.map (·.1.length)).foldl max 0
  String.join (entries.map fun (name, summary) => s!"    {padTo (width + 4) name}{summary}\n")

private def switchRows (switches : List Switch) : String :=
  "OPTIONS:\n" ++ rows (switches.map fun s => (s.usage, s.summary))

def helpText : Option Verb → String
  | none =>
    s!"{version}\nTurns JSON, CSV, XML and GraphQL payloads into tables and time series\n\n"
      ++ s!"USAGE:\n    {programName} [OPTIONS] [SUBCOMMAND]\n\n{switchRows Switch.main}\n"
      ++ "SUBCOMMANDS:\n"
      ++ rows (("help", "Print this message or the help of the given subcommand(s)")
        :: Verb.all.map fun v => (v.name, v.summary))
  | some verb =>
    let required := match verb with
      | .query => " --input <FILE>"
      | .server => ""
    s!"{title}-{verb.name} \n{verb.summary}\n\n"
      ++ s!"USAGE:\n    {programName} {verb.name} [OPTIONS]{required}\n\n"
      ++ switchRows verb.switches

end Tabulate.Command
