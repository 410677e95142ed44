import EndpointCatalog.Catalog.Basic

namespace EndpointCatalog

structure Command where
  module : String
  controller : String
  command : String
  verb : Verb
  parameters : List String := []
deriving DecidableEq, Repr

namespace Command

def ofEndpoint (e : Endpoint) : Command :=
  ⟨e.module, e.controller, e.command, e.verb, e.parameters⟩

def group (c : Command) : String := c.module ++ "/" ++ c.controller

def name (c : Command) : String := c.group ++ "/" ++ c.command

end Command

def Catalog.commands (c : Catalog) : List Command :=
  (c.endpoints.filter (·.isCallable)).map Command.ofEndpoint

end EndpointCatalog
