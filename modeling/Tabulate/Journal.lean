/-! What a computation reports on the side: warnings for the caller and notes for the log. -/
namespace Tabulate

inductive Level
  | error
  | warn
  | info
  | debug
  | trace
deriving DecidableEq

def Level.rank : Level → Nat
  | error => 1
  | warn => 2
  | info => 3
  | debug => 4
  | trace => 5

def Level.name : Level → String
  | error => "ERROR"
  | warn => "WARN"
  | info => "INFO"
  | debug => "DEBUG"
  | trace => "TRACE"

inductive Source
  | data
  | delimited
  | pipeline
  | pipelineText
  | filter
  | expansion
  | aggregation
  | table
  | series
  | query
  | service
  | command
deriving DecidableEq

structure Report where
  level : Level
  source : Source
  text : String
deriving DecidableEq

abbrev Journal := List Report

def Journal.warnings (j : Journal) : List String :=
  (j.filter (·.level == .warn)).map (·.text)

/-- A computation that may fail and keeps its reports even then. -/
abbrev Reporting (ε : Type) := ExceptT ε (StateM Journal)

namespace Reporting

def report {ε : Type} (r : Report) : Reporting ε Unit := modify (· ++ [r])

def warn {ε : Type} (text : String) : Reporting ε Unit := report ⟨.warn, .data, text⟩

def debug {ε : Type} (source : Source) (text : String) : Reporting ε Unit :=
  report ⟨.debug, source, text⟩

def outcome {ε α : Type} (x : Reporting ε α) : Except ε α × Journal := (x.run).run []

def mapError {ε δ α : Type} (f : ε → δ) (x : Reporting ε α) : Reporting δ α :=
  ExceptT.mk (do return (← x.run).mapError f)

end Reporting
end Tabulate
