import EndpointCatalog.CommandLine.Call
import EndpointCatalog.Routine

namespace EndpointCatalog.CommandLine

open Session

def loadRoutines (p : Path) : Session (List Routine) :=
  doing ("Failed to load macro file " ++ p.text) (look (loadYaml Routine.read? p))

def isKnown (cs : List Command) (step : String) : Bool := (Command.find? cs step).isSome

/-- The steps that name known commands; each other is logged. -/
def knownSteps (cs : List Command) (steps : List String) : Session (List String) := do
  for step in steps do
    if !isKnown cs step then log .stepSkipped
  pure (steps.filter (isKnown cs))

def runSteps (connection : Connection) (cs : List Command) (args : List String) :
    List String → Session Unit
  | [] => pure ()
  | step :: steps => do
    log .running
    write ((← call connection cs step args none) ++ "\n")
    runSteps connection cs args steps

def listRoutines (routinesFile : Path) : Session Unit := do
  write (Routine.write (← loadRoutines routinesFile))

/-- Runs the routine of a name. Without a name the routines are listed, and a name that no routine
has is only logged. -/
def runRoutine (a : Access) (routinesFile commandsFile : Path) (name? : Option String)
    (args : List String) : Session Unit := do
  let rs ← loadRoutines routinesFile
  match name? with
  | none =>
    log .nameMissing
    write (Routine.write rs)
  | some name =>
    match Routine.find? rs name with
    | none => log .routineUnknown
    | some r =>
      let cs ← loadCommands commandsFile
      let steps ← knownSteps cs r.steps
      let connection ← connect a
      runSteps connection cs args steps

end EndpointCatalog.CommandLine
