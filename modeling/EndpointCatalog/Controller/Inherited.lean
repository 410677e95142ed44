import EndpointCatalog.Controller.Facts

namespace EndpointCatalog

structure Inherited where
  table : List (String × List (String × Verb)) := []
deriving DecidableEq, Repr

namespace Inherited

def usual : Inherited where
  table :=
    [("ApiMutableModelControllerBase", [("set", .post), ("get", .get)]),
      ("ApiMutableServiceControllerBase",
        [("status", .get), ("start", .post), ("stop", .post), ("restart", .post),
          ("reconfigure", .post)])]

def commandsOf (t : Inherited) (baseClass : String) : List (String × Verb) :=
  (t.table.lookup baseClass).getD []

/-- Gives a command a verb; a new command comes last. -/
def setVerb (command : String) (verb : Verb) : List (String × Verb) → List (String × Verb)
  | [] => [(command, verb)]
  | (c, v) :: cs => if c = command then (c, verb) :: cs else (c, v) :: setVerb command verb cs

def insert (e : InheritedEntry) :
    List (String × List (String × Verb)) → List (String × List (String × Verb))
  | [] => [(e.baseClass, [(e.command, e.verb)])]
  | (b, cs) :: rows =>
    if b = e.baseClass then (b, setVerb e.command e.verb cs) :: rows
    else (b, cs) :: insert e rows

def withEntries (t : Inherited) (es : List InheritedEntry) : Inherited :=
  ⟨es.foldl (fun rows e => insert e rows) t.table⟩

/-- The endpoints that a controller inherits, without the commands it defines itself. -/
def endpoints (t : Inherited) (f : Facts) (defined : List String) (marker : String) :
    List Endpoint :=
  ((t.commandsOf f.baseClass).filter fun c => !defined.contains c.1).map fun c =>
    f.endpoint (f.kind marker) c.2 c.1 []

end Inherited

end EndpointCatalog
