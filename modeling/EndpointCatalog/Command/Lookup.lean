import EndpointCatalog.Command.Basic
import EndpointCatalog.Fault

namespace EndpointCatalog.Command

def find? (cs : List Command) (name : String) : Option Command := cs.find? (·.name == name)

def resolve (cs : List Command) (name : String) (args : List String) : Except Fault Command :=
  match find? cs name with
  | none => .error (.unknownCommand name)
  | some c =>
    if args.length < c.parameters.length then
      .error (.missingArguments name c.parameters.length (", ".intercalate c.parameters)
        args.length)
    else .ok c

end EndpointCatalog.Command
