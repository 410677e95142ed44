import EndpointCatalog.Controller.Facts
import EndpointCatalog.Controller.Parameter

namespace EndpointCatalog

/-- A method as its header shows it: the points where the header starts and ends, the name, and
the text of the parameters. -/
structure Method where
  start : Cursor
  stop : Cursor
  name : List Char
  parameters : List Char
deriving DecidableEq, Repr

namespace Method

def ofMatch? (m : Match) : Option Method :=
  (m.group? 3).map fun name => ⟨m.start, m.stop, name, (m.group? 4).getD []⟩

def all (d : Dialect) (source : List Char) : List Method :=
  (d.methodHeader.findAll source).filterMap ofMatch?

/-- What follows a method's header, up to the next method. -/
def body (m : Method) (next : Option Method) : List Char :=
  match next with
  | some n => m.stop.upTo n.start
  | none => m.stop.rest

def endpoint? (d : Dialect) (f : Facts) (m : Method) (next : Option Method) : Option Endpoint :=
  (d.commandOf? m.name).map fun command =>
    f.endpoint (f.kind d.conventions.serviceMarker) (d.verbOf (m.body next))
      (String.ofList command)
      ((Controller.Parameter.names m.parameters).map String.ofList)

def endpoints (d : Dialect) (f : Facts) : List Method → List Endpoint
  | [] => []
  | m :: ms => (m.endpoint? d f ms.head?).toList ++ endpoints d f ms

end Method

def Facts.actions (f : Facts) (d : Dialect) (source : List Char) : List Endpoint :=
  Method.endpoints d f (Method.all d source)

end EndpointCatalog
