import EndpointCatalog.CommandLine.Run
import EndpointCatalog.Proofs.Command.Document
import EndpointCatalog.Proofs.CommandLine.Call
import EndpointCatalog.Proofs.CommandLine.Outcome
import EndpointCatalog.Proofs.Routine

namespace EndpointCatalog.CommandLine

open Session

section

variable (s : Surroundings) (r : Report) (k : Connection) {cs : List Command} {c : Command}
  {target : String} {args : List String}

end

section

variable {f : Fault}

end

section

variable (a : Access) (routinesFile commandsFile : Path) (args : List String) (s : Surroundings)
  (w : Workspace)

end

end EndpointCatalog.CommandLine
