import EndpointCatalog.Command.Basic
import EndpointCatalog.Yaml.Schema
import EndpointCatalog.Yaml.Value

namespace EndpointCatalog.Command

open Yaml

def toValue (c : Command) : Value :=
  .fields ([("module", .text c.module), ("controller", .text c.controller),
      ("command", .text c.command), ("method", .text c.verb.text)] ++
    if c.parameters.isEmpty then [] else [("parameters", .texts c.parameters)])

def write (cs : List Command) : String := Value.document (cs.map toValue)

def ofNode? (d : Document) (v : Node) : Option Command := do
  let es ← d.entries? ["module", "controller", "command", "method", "parameters"] v
  let module ← d.text? (← es.lookup "module")
  let controller ← d.text? (← es.lookup "controller")
  let command ← d.text? (← es.lookup "command")
  let verb ← Verb.ofText? (← d.word? (← es.lookup "method"))
  let parameters ← match es.lookup "parameters" with
    | some v => d.texts? v
    | none => some []
  return ⟨module, controller, command, verb, parameters⟩

def read? (text : String) : Option (List Command) := readList? ofNode? text

end EndpointCatalog.Command
