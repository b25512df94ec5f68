/-! Items grouped by a text, with the groups in the order in which their first items come. -/
namespace Tabulate.Groups
variable {α σ : Type}

/-- Changes the state of a key; one that has none gets its own at the end. -/
def update (key : String) (start : σ) (change : σ → σ) : List (String × σ) → List (String × σ)
  | [] => [(key, change start)]
  | (k, state) :: rest =>
    if k = key then (k, change state) :: rest else (k, state) :: update key start change rest

def fold (key : α → String) (start : α → σ) (step : σ → α → σ) (items : List α) : List (String × σ) :=
  items.foldl (fun groups a => update (key a) (start a) (step · a) groups) []

end Tabulate.Groups
