import EndpointCatalog.Path.Basic

namespace EndpointCatalog

open Text.Blank Text.Search

inductive Repository where
  | core
  | plugins
deriving DecidableEq, Repr

namespace Repository

def name : Repository → String
  | core => "core"
  | plugins => "plugins"

def ofName? (s : String) : Option Repository :=
  if s = "core" then some core else if s = "plugins" then some plugins else none

def cloneUrl (r : Repository) : String := "https://github.com/opnsense/" ++ r.name ++ ".git"

/-- How many directories of a repository lead to the sources of one of its parts. -/
def depth : Repository → Nat
  | core => 0
  | plugins => 2

/-- The address of a file, by the part of its path that belongs to the repository: from the first
segment `src` on, and with the directories that lead to it. -/
def sourceUrl (r : Repository) (p : Path) : String :=
  let parts := (replace '\\' '/' p.text.toList).splitOn '/'
  match parts.findIdx? (· == "src".toList) with
  | none => String.ofList (['/'].intercalate parts)
  | some i =>
    "https://github.com/opnsense/" ++ r.name ++ "/blob/master/" ++
      String.ofList (['/'].intercalate (parts.drop (i - r.depth)))

end Repository

end EndpointCatalog
