import EndpointCatalog.CommandLine.Collect
import EndpointCatalog.CommandLine.Routines

namespace EndpointCatalog.CommandLine

namespace Task

def session : Task → Session Unit
  | collect source? r output? format settings =>
    CommandLine.collect source? r output? format settings
  | list commandsFile => CommandLine.list commandsFile
  | call a commandsFile target args method? => callTarget a commandsFile target args method?
  | listRoutines routinesFile => CommandLine.listRoutines routinesFile
  | run a routinesFile commandsFile name? args => runRoutine a routinesFile commandsFile name? args

def perform (t : Task) (s : Surroundings) (w : Workspace) : Except Trouble Unit × Report :=
  (t.session s).run { workspace := w }

end Task

namespace Report

def told (r : Report) (f : Filter) : List Event := r.events.filter f.allows

end Report

end EndpointCatalog.CommandLine
