import EndpointCatalog.Catalog.Storage

namespace EndpointCatalog

open Text Text.Blank Text.Bytes

/-- How a run of a program ended: whether well, and what it wrote on its error channel. -/
structure Exit where
  isSuccess : Bool
  stderr : Bytes := []
deriving DecidableEq, Repr

abbrev Git := List String → Workspace → Option (Exit × Workspace)

namespace GitAction

def arguments (url : String) (dest : Path) : GitAction → List String
  | clone => ["clone", url, dest.text]
  | pull => ["-C", dest.text, "pull", "--ff-only"]

/-- A directory that holds a checkout is moved forward, any other is to be made. -/
def choose (w : Workspace) (dest : Path) : GitAction :=
  if w.isDir (dest.join ⟨".git"⟩) then pull else clone

end GitAction

namespace Checkout

def stderrText (e : Exit) : String :=
  String.ofList (trim (decodeLossy e.stderr).toList)

def acquire (git : Git) (url : String) (dest : Path) : Change Unit := do
  let action := GitAction.choose (← get) dest
  match git (action.arguments url dest) (← get) with
  | none => throw (.file dest (.refused .notFound))
  | some (e, w) =>
    set w
    if e.isSuccess then pure () else throw (.git action url (stderrText e))

end Checkout

end EndpointCatalog
