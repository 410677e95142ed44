import EndpointCatalog.Command.Basic
import EndpointCatalog.Credentials
import EndpointCatalog.Json.Printer
import EndpointCatalog.Json.Reader
import EndpointCatalog.Text.Casing

namespace EndpointCatalog

structure Connection where
  base : String
  credentials : Credentials := {}
  insecure : Bool := false
deriving DecidableEq, Repr

structure Request where
  method : String
  url : String
  connection : Connection
deriving DecidableEq, Repr

/-- The answer to a request after others, the latest first; there may be none. -/
abbrev Service := List Request → Request → Option String

namespace Service

def unreachable : Service := fun _ _ => none

end Service

namespace Verb

def signs : List Char :=
  ['!', '#', '$', '%', '&', '\'', '*', '+', '-', '.', '^', '_', '\x60', '|', '~']

def isMethodChar (c : Char) : Bool := c.isAlphanum || signs.contains c

def isMethodName (s : String) : Bool := !s.toList.isEmpty && s.toList.all isMethodChar

/-- The method of a request. The caller chooses it only if the verb leaves the choice. -/
def methodName (v : Verb) (choice? : Option String) : Except Fault String :=
  match v, choice? with
  | any, some name =>
    let method := Text.Casing.uppercase name
    if isMethodName method then .ok method else .error (.invalidMethod name)
  | post, _ => .ok "POST"
  | _, _ => .ok "GET"

end Verb

namespace Connection

def trimSlashes (s : String) : String :=
  String.ofList (s.toList.reverse.dropWhile (· = '/')).reverse

def url (c : Connection) (command : Command) (args : List String) : String :=
  trimSlashes c.base ++ "/api/" ++ command.name ++ "".intercalate (args.map ("/" ++ ·))

def request (c : Connection) (command : Command) (args : List String)
    (choice? : Option String) : Except Fault Request :=
  (command.verb.methodName choice?).map fun method => ⟨method, c.url command args, c⟩

end Connection

def Request.shown (answer? : Option String) : Except Fault String :=
  match answer? with
  | none => .error .http
  | some body => match Json.parse? body with
    | some v => .ok v.pretty
    | none => .error .json

end EndpointCatalog
