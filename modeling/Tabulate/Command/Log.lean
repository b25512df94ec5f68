import Tabulate.Journal

/-! The lines of the log. -/
namespace Tabulate

def Source.path (s : Source) : String :=
  let part := match s with
    | data => "::data"
    | delimited => "::data::csv"
    | pipeline => "::processing"
    | pipelineText => "::processing::parser"
    | filter => "::processing::filter"
    | expansion => "::processing::transform"
    | aggregation => "::processing::aggregate"
    | table => "::frame::table"
    | series => "::frame::timeseries"
    | query => "::query"
    | service => "::api::handlers"
    | command => ""
  "rust_data_transformation_engine" ++ part

private def Level.colour : Level → Nat
  | error => 31
  | warn => 33
  | info => 32
  | debug => 34
  | trace => 90

def Report.terminalLine (r : Report) : String :=
  s!"\x1b[{r.level.colour}m{r.level.name}\x1b[0m: {r.text}"

def Report.fileLine (r : Report) : String := s!"{r.level.name} {r.source.path}: {r.text}"

/-- The reports that are as severe as a level; none for no level. -/
def Journal.upTo (level : Option Level) (j : Journal) : Journal :=
  match level with
  | none => []
  | some level => j.filter (·.level.rank ≤ level.rank)

end Tabulate
