import EndpointCatalog.Fault
import EndpointCatalog.Text.Escaped

namespace EndpointCatalog

open Text.Blank Text.Search

structure SecretFile where
  key? : Option String := none
  secret? : Option String := none
deriving DecidableEq, Repr

structure Credentials where
  key : String := ""
  secret : String := ""
deriving DecidableEq, Repr

namespace SecretFile

def trimReturns (line : List Char) : List Char :=
  (line.reverse.dropWhile (· = '\r')).reverse

def readLine (f : SecretFile) (line : List Char) : SecretFile :=
  match after? "key=".toList line, after? "secret=".toList line with
  | some s, _ => { f with key? := some (String.ofList s) }
  | _, some s => { f with secret? := some (String.ofList s) }
  | none, none => f

def parse? (text : String) : Option SecretFile :=
  match text.toList.splitOn '\n' with
  | l :: m :: ls => some (((l :: m :: ls).map trimReturns).foldl readLine {})
  | _ => none

end SecretFile

namespace Credentials

def isComplete (c : Credentials) : Bool := c.key != "" && c.secret != ""

/-- What a secret file says takes the place of what is given. -/
def fill (c : Credentials) (f : SecretFile) : Credentials :=
  ⟨f.key?.getD c.key, f.secret?.getD c.secret⟩

def resolve (w : Workspace) (key? secret? : Option String) (file? : Option Path) :
    Except Fault Credentials :=
  let given : Credentials := ⟨key?.getD "", secret?.getD ""⟩
  match given.isComplete, file? with
  | false, some p =>
    match w.readText p with
    | .error e => .error (.file p e)
    | .ok text => match SecretFile.parse? text with
      | some f => .ok (given.fill f)
      | none => .error (.secretFile p)
  | _, _ => .ok given

def shown (c : Credentials) : String :=
  "Credentials \x7b key: " ++ Text.Escaped.quoted c.key ++ ", secret: \"***\" \x7d"

end Credentials

end EndpointCatalog
