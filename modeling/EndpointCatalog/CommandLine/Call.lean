import EndpointCatalog.Command.Document
import EndpointCatalog.Command.Listing
import EndpointCatalog.Command.Lookup
import EndpointCatalog.CommandLine.Invocation
import EndpointCatalog.CommandLine.Session

namespace EndpointCatalog.CommandLine

open Session

def loadYaml {α : Type} (read? : String → Option α) (p : Path) (w : Workspace) :
    Except Fault α :=
  match w.readText p with
  | .error e => .error (.file p e)
  | .ok text => match read? text with
    | some a => .ok a
    | none => .error .yaml

def loadCommands (p : Path) : Session (List Command) := do
  let cs ← doing ("Failed to load commands file " ++ p.text)
    (look (loadYaml Command.read? p))
  log .commandsLoaded
  pure cs

def connect (a : Access) : Session Connection := do
  let credentials ← doing "Failed to resolve API credentials"
    (look (Credentials.resolve · a.key? a.secret? a.secretFile?))
  pure ⟨a.url, credentials, a.insecure⟩

def call (connection : Connection) (cs : List Command) (target : String) (args : List String)
    (choice? : Option String) : Session String := do
  let command ← lift (Command.resolve cs target args)
  doing (target ++ " failed") do
    send (← lift (connection.request command args choice?))

def list (commandsFile : Path) : Session Unit := do
  write (Command.listing (← loadCommands commandsFile))

def callTarget (a : Access) (commandsFile : Path) (target : String) (args : List String)
    (choice? : Option String) : Session Unit := do
  let cs ← loadCommands commandsFile
  let connection ← connect a
  write ((← call connection cs target args choice?) ++ "\n")

end EndpointCatalog.CommandLine
