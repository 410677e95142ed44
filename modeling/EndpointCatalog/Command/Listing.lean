import EndpointCatalog.Command.Basic

namespace EndpointCatalog.Command

def grouped (cs : List Command) : Groups Command := Groups.ofList group cs

def padded (width : Nat) (s : String) : String :=
  s ++ String.ofList (List.replicate (width - s.length) ' ')

def line (c : Command) : String :=
  "  " ++ padded 6 c.verb.text ++ " " ++ c.command ++
    (if c.parameters.isEmpty then "" else " <" ++ "> <".intercalate c.parameters ++ ">")

def groupLines (g : String × List Command) : List String := g.1 :: g.2.map line

def listing (cs : List Command) : String :=
  "".intercalate (((grouped cs).flatMap groupLines).map (· ++ "\n"))

end EndpointCatalog.Command
