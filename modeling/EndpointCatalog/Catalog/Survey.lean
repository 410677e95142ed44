import EndpointCatalog.Catalog.Basic
import EndpointCatalog.Controller.Action
import EndpointCatalog.Controller.Inherited
import EndpointCatalog.Fault

namespace EndpointCatalog

structure Survey where
  scan : ScanRules
  dialect : Dialect
  inherited : Inherited

namespace Survey

def ofSettings (s : Settings) : Survey where
  scan := s.scan
  dialect := .ofConventions s.conventions
  inherited := Inherited.usual.withEntries s.inherited

/-- The endpoints of a source: its actions and what it inherits, in the order of the commands. -/
def analyze (v : Survey) (isFile : Path → Bool) (p : Path) (source : List Char) :
    List Endpoint :=
  let facts := Facts.ofSource v.dialect isFile p source
  let actions := facts.actions v.dialect source
  if actions.isEmpty then []
  else Endpoint.sort (actions ++ v.inherited.endpoints facts (actions.map (·.command))
    v.dialect.conventions.serviceMarker)

/-- The endpoints of a file; bytes that spell no character do not matter. -/
def analyzeFile (v : Survey) (w : Workspace) (p : Path) : Except Fault (List Endpoint) :=
  match w.read p with
  | .error e => .error (.file p (.refused e))
  | .ok b => .ok (v.analyze w.isFile p (Text.Bytes.decodeLossy b).toList)

def isHidden (name : String) : Bool := name.toList.head? == some '.'

def below (p : Path) (names : List String) : Path := names.foldl (fun q n => q.join ⟨n⟩) p

def controllerFiles (v : Survey) (w : Workspace) (root : Path) : Except Fault (List Path) :=
  match w.resolve root with
  | .ok (_, .dir es) =>
    .ok ((((FileTree.dir es).files isHidden).map (below root)).filter v.scan.accepts
      |>.mergeSort fun a b => (a.compare b).isLE)
  | _ => .error (.file root .noSourceDirectory)

def collect (v : Survey) (w : Workspace) (root : Path) (r : Repository) :
    Except Fault Catalog := do
  let paths ← v.controllerFiles w root
  let files ← paths.mapM fun p => return { path := p, endpoints := ← v.analyzeFile w p }
  return .ofFiles r files

end Survey

end EndpointCatalog
