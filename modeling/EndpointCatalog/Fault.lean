import EndpointCatalog.FileTree.Basic

namespace EndpointCatalog

inductive FileFault where
  | refused (e : PathError)
  | invalidUtf8
  | noSourceDirectory
deriving DecidableEq, Repr

namespace FileFault

def message : FileFault → String
  | refused e => e.message
  | invalidUtf8 => "stream did not contain valid UTF-8"
  | noSourceDirectory => "source directory not found"

end FileFault

inductive GitAction where
  | clone
  | pull
deriving DecidableEq, Repr

namespace GitAction

def name : GitAction → String
  | clone => "clone"
  | pull => "pull"

end GitAction

inductive Fault where
  | file (path : Path) (cause : FileFault)
  | pattern
  | settings (path : Path)
  | yaml
  | json
  | git (action : GitAction) (url stderr : String)
  | http
  | secretFile (path : Path)
  | unknownCommand (name : String)
  | invalidMethod (name : String)
  | missingArguments (command : String) (expected : Nat) (names : String) (got : Nat)
deriving DecidableEq, Repr

namespace Fault

def message : Fault → String
  | file p cause => "I/O error on " ++ p.text ++ ": " ++ cause.message
  | pattern => "Invalid pattern: "
  | settings p => "Invalid config " ++ p.text ++ ": "
  | yaml => "YAML error: "
  | json => "JSON error: "
  | git action url stderr =>
    "git " ++ action.name ++ " failed for " ++ url ++ ": " ++ stderr
  | http => "HTTP error: "
  | secretFile p => "Key/Secret file " ++ p.text ++ " must contain key= and secret= fields"
  | unknownCommand name => "Unknown command: " ++ name
  | invalidMethod name => "Invalid HTTP method: " ++ name
  | missingArguments command expected names got =>
    command ++ " requires at least " ++ toString expected ++ " argument(s) (" ++ names ++
      "), got " ++ toString got

def chain : Fault → String
  | file p cause => (file p cause).message ++ ": " ++ cause.message
  | f => f.message

end Fault

namespace Workspace

def readText (w : Workspace) (p : Path) : Except FileFault String :=
  match w.read p with
  | .error e => .error (.refused e)
  | .ok b => match Text.Bytes.decode? b with
    | some s => .ok s
    | none => .error .invalidUtf8

end Workspace

end EndpointCatalog
