namespace EndpointCatalog

variable {α : Type}

/-- Lists of values by increasing key. -/
abbrev Groups (α : Type) := List (String × List α)

namespace Groups

def add (key : String) (value : α) : Groups α → Groups α
  | [] => [(key, [value])]
  | (k, vs) :: gs =>
    if key < k then (key, [value]) :: (k, vs) :: gs
    else if key = k then (k, vs ++ [value]) :: gs
    else (k, vs) :: add key value gs

def ofList (key : α → String) (vs : List α) : Groups α :=
  vs.foldl (fun gs v => gs.add (key v) v) []

def values (gs : Groups α) : List α := gs.flatMap (·.2)

end Groups

end EndpointCatalog
