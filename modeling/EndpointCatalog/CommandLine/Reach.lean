import EndpointCatalog.CommandLine.Run

namespace EndpointCatalog

namespace FileTree

mutual

/-- The files of `new` that `old` does not have or has with another content. -/
def written (old : Option FileTree) (new : FileTree) : List (List String × Text.Bytes) :=
  match new, old with
  | file b, some (file b') => if b = b' then [] else [([], b)]
  | file b, _ => [([], b)]
  | dir es, some (dir es') => writtenIn es' es
  | dir es, _ => writtenIn [] es

def writtenIn (old : List (String × FileTree)) :
    List (String × FileTree) → List (List String × Text.Bytes)
  | [] => []
  | (n, t) :: es =>
    (written (old.lookup n) t).map (fun w => (n :: w.1, w.2)) ++ writtenIn old es

end

def removed (old new : FileTree) : List (List String) :=
  (old.files fun _ => false).filter fun names => (new.get? names).isNone

end FileTree

namespace CommandLine.Task

def modelPlaces (modelsDir : String) (root : Path) : List Path :=
  (List.range 6).filterMap fun n => (root.ancestor? n).map (·.join ⟨modelsDir⟩)

def settingsFile? : Task → Option Path
  | collect _ _ _ _ settings => some settings
  | _ => none

def reach (temporary : Path) (modelsDir : String) : Task → List Path
  | collect source? r output? _ settings =>
    let root := source?.getD (temporary.join ⟨r.name⟩)
    let output := output?.getD ⟨r.name ++ ".yaml"⟩
    [settings, root, output, Catalog.draftOf output] ++ modelPlaces modelsDir root
  | list commandsFile => [commandsFile]
  | call a commandsFile _ _ _ => commandsFile :: a.secretFile?.toList
  | listRoutines routinesFile => [routinesFile]
  | run a routinesFile commandsFile _ _ => routinesFile :: commandsFile :: a.secretFile?.toList

end CommandLine.Task

end EndpointCatalog
