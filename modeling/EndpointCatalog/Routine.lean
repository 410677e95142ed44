import EndpointCatalog.Yaml.Schema
import EndpointCatalog.Yaml.Value

namespace EndpointCatalog

open Yaml

structure Routine where
  name : String
  steps : List String
deriving DecidableEq, Repr

namespace Routine

def find? (rs : List Routine) (name : String) : Option Routine := rs.find? (·.name == name)

def toValue (r : Routine) : Value :=
  .fields [("name", .text r.name), ("commands", .texts r.steps)]

def write (rs : List Routine) : String := Value.document (rs.map toValue)

def ofNode? (d : Document) (v : Node) : Option Routine := do
  let es ← d.entries? ["name", "commands"] v
  return ⟨← d.text? (← es.lookup "name"), ← d.texts? (← es.lookup "commands")⟩

def read? (text : String) : Option (List Routine) := readList? ofNode? text

end Routine

end EndpointCatalog
