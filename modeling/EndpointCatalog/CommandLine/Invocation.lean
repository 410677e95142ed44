import EndpointCatalog.Catalog.Document
import EndpointCatalog.CommandLine.Log
import EndpointCatalog.CommandLine.Usage

namespace EndpointCatalog.CommandLine

structure Access where
  url : String
  key? : Option String
  secret? : Option String
  secretFile? : Option Path
  insecure : Bool
deriving DecidableEq, Repr

inductive Task where
  | collect (source? : Option Path) (repository : Repository) (output? : Option Path)
      (format : Format) (settings : Path)
  | list (commandsFile : Path)
  | call (access : Access) (commandsFile : Path) (target : String) (args : List String)
      (method? : Option String)
  | listRoutines (routinesFile : Path)
  | run (access : Access) (routinesFile commandsFile : Path) (name? : Option String)
      (args : List String)
deriving DecidableEq, Repr

structure Invocation where
  quiet : Bool
  verbose : Bool
  task : Task
deriving DecidableEq, Repr

namespace Stage

def manners : List Choice :=
  [⟨"verbose", some 'v', .nothing, none⟩, ⟨"quiet", some 'q', .nothing, none⟩]

def access : List Choice :=
  [{ name := "url", environment? := some "OPNSENSE_URL" },
    { name := "key", environment? := some "OPNSENSE_KEY" },
    { name := "secret", environment? := some "OPNSENSE_SECRET" },
    { name := "secret-file", takes := .path, environment? := some "OPNSENSE_SECRET_FILE" },
    { name := "insecure", takes := .nothing, environment? := some "OPNSENSE_INSECURE" }]

def commandsFile : Choice := { name := "commands-file", takes := .path }

def top : Stage := ⟨manners, false⟩

def collect : Stage where
  choices := manners ++
    [⟨"source", some 's', .path, none⟩, ⟨"repo", some 'r', .oneOf ["core", "plugins"], none⟩,
      ⟨"output", some 'o', .path, none⟩,
      ⟨"format", some 'f', .oneOf ["commands", "catalog"], none⟩,
      ⟨"config", some 'c', .path, none⟩]

def raw : Stage where
  choices := manners ++ access ++ [commandsFile, ⟨"method", some 'm', .text, none⟩]
  hasWords := true

def routines : Stage where
  choices := manners ++ access ++ [{ name := "macro-file", takes := .path }, commandsFile]

def listRoutines : Stage := ⟨manners, false⟩

def runRoutine : Stage := ⟨manners, true⟩

end Stage

namespace Given

def path? (g : Given) (name : String) : Option Path := (g.value? name).map (⟨·⟩)

def pathOr (g : Given) (name usual : String) : Path := ⟨(g.value? name).getD usual⟩

def access (g : Given) : Access where
  url := (g.value? "url").getD "https://opnsense.local"
  key? := g.value? "key"
  secret? := g.value? "secret"
  secretFile? := g.path? "secret-file"
  insecure := g.has "insecure"

def commandsFile (g : Given) : Path := g.pathOr "commands-file" "raw-commands.yaml"

def routinesFile (g : Given) : Path := g.pathOr "macro-file" "default-macro.yaml"

def collect (g : Given) : Task :=
  .collect (g.path? "source") (((g.value? "repo").bind Repository.ofName?).getD .core)
    (g.path? "output") (((g.value? "format").bind Format.ofName?).getD .commands)
    (g.pathOr "config" "opncat.toml")

def raw (g : Given) : Task :=
  match g.words with
  | [] => .list g.commandsFile
  | target :: args => .call g.access g.commandsFile target args (g.value? "method")

/-- Whether what is given at one stage asks for more and for less to be told. -/
def isTorn (g : Given) : Bool := g.has "verbose" && g.has "quiet"

end Given

namespace Invocation

def ofGiven? (gs : List Given) (task : Task) : Option Invocation :=
  if gs.any (·.isTorn) then none
  else some ⟨gs.any (·.has "quiet"), gs.any (·.has "verbose"), task⟩

def last? (s : Stage) (environment : String → Option String) (args : List String) :
    Option Given :=
  (s.run? environment args).bind fun (g, rest) => if rest.isEmpty then some g else none

/-- Reads what follows the word for routines; `top` is given before it. -/
def routines? (environment : String → Option String) (top : Given) (args : List String) :
    Option Invocation := do
  let (g, rest) ← Stage.routines.run? environment args
  match rest with
  | "list" :: args =>
    let h ← last? Stage.listRoutines environment args
    ofGiven? [top, g, h] (.listRoutines g.routinesFile)
  | "run" :: args =>
    let h ← last? Stage.runRoutine environment args
    ofGiven? [top, g, h]
      (.run g.access g.routinesFile g.commandsFile h.words.head? (h.words.drop 1))
  | _ => none

def parse? (environment : String → Option String) (args : List String) : Option Invocation := do
  let (top, rest) ← Stage.top.run? environment args
  match rest with
  | "collect" :: args =>
    let g ← last? Stage.collect environment args
    ofGiven? [top, g] g.collect
  | "raw" :: args =>
    let g ← last? Stage.raw environment args
    ofGiven? [top, g] g.raw
  | "macro" :: args => routines? environment top args
  | _ => none

/-- What is logged: as a setting says, if it can be read, or else as the arguments say. -/
def filter (i : Invocation) (setting? : Option String) : Filter :=
  match setting?.bind Filter.parse? with
  | some f => f
  | none =>
    let level : Level := if i.quiet then .error else if i.verbose then .debug else .info
    [⟨[], level.rank⟩]

end Invocation

end EndpointCatalog.CommandLine
