import EndpointCatalog.Checkout.Basic
import EndpointCatalog.CommandLine.Log
import EndpointCatalog.Request

namespace EndpointCatalog.CommandLine

structure Surroundings where
  git : Git
  service : Service := .unreachable
  temporary : Path

/-- What a run has done so far; the latest request is the first. -/
structure Report where
  workspace : Workspace
  output : String := ""
  events : List Event := []
  runsOfGit : List (List String) := []
  requests : List Request := []

/-- A failure: what was being done, the widest description first, and the cause. -/
structure Trouble where
  doing : List String := []
  cause : Fault
deriving DecidableEq, Repr

namespace Trouble

def message (t : Trouble) : String := "Error: " ++ ": ".intercalate (t.doing ++ [t.cause.chain])

end Trouble

abbrev Session := ReaderT Surroundings (ExceptT Trouble (StateM Report))

namespace Session

def doing {α : Type} (description : String) (x : Session α) : Session α :=
  tryCatch x fun t => throw { t with doing := description :: t.doing }

def lift {α : Type} : Except Fault α → Session α
  | .ok a => pure a
  | .error f => throw { cause := f }

def log (e : Event) : Session Unit := modify fun r => { r with events := r.events ++ [e] }

def write (text : String) : Session Unit := modify fun r => { r with output := r.output ++ text }

def look {α : Type} (f : Workspace → Except Fault α) : Session α := do lift (f (← get).workspace)

def change {α : Type} (c : Change α) : Session α := do
  let (result, w) := c.run (← get).workspace
  modify fun r => { r with workspace := w }
  lift result

def acquire (url : String) (dest : Path) : Session Unit := do
  let git := (← read).git
  let w := (← get).workspace
  let action := GitAction.choose w dest
  log (match action with
    | .pull => .pulling
    | .clone => .cloning)
  if (git (action.arguments url dest) w).isSome then
    modify fun r => { r with runsOfGit := r.runsOfGit ++ [action.arguments url dest] }
  change (Checkout.acquire git url dest)

def send (request : Request) : Session String := do
  let earlier := (← get).requests
  modify fun r => { r with requests := request :: earlier }
  lift (Request.shown ((← read).service earlier request))

end Session

end EndpointCatalog.CommandLine
