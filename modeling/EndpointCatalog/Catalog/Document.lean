import EndpointCatalog.Command.Document
import EndpointCatalog.Text.Casing

namespace EndpointCatalog

open Yaml Text.Casing

inductive Format where
  | commands
  | catalog
deriving DecidableEq, Repr

namespace Format

def ofName? (s : String) : Option Format :=
  if s = "commands" then some commands else if s = "catalog" then some catalog else none

end Format

def ModelLink.toValue (l : ModelLink) : Value :=
  .fields [("type", .text "model"), ("link", .text l.link), ("name", .text l.name)]

def Endpoint.toValue (e : Endpoint) : Value :=
  .fields (
    [("method", .text e.verb.text), ("module", .text e.module),
      ("controller", .text e.controller), ("is_abstract", .bool e.isAbstract),
      ("base_class", .text e.baseClass), ("command", .text e.command)] ++
    (if e.parameters.isEmpty then [] else [("parameters", .texts e.parameters)]) ++
    [("filename", .text e.fileName)] ++
    (e.modelFile?.map fun p => ("model_filename", Value.text p.text)).toList ++
    [("type", .text e.kind.text)])

def Controller.toValue (c : Controller) : Value :=
  .fields (
    [("type", .text c.kind.text), ("filename", .text c.fileName),
      ("is_abstract", .bool c.isAbstract), ("base_class", .text c.baseClass)] ++
    (if c.uses.isEmpty then [] else [("uses", .list (c.uses.map ModelLink.toValue))]) ++
    [("endpoints", .list (c.endpoints.map Endpoint.toValue))])

namespace Catalog

/-- A module with its controllers; its title is the name in upper case. -/
def moduleValue (m : String × List Controller) : Value :=
  .fields [("name", .text m.1), ("title", .text (uppercase m.1)),
    ("controllers", .list (m.2.map Controller.toValue))]

def write (c : Catalog) : Format → String
  | .commands => Command.write c.commands
  | .catalog => Value.document (c.modules.map moduleValue)

end Catalog

end EndpointCatalog
