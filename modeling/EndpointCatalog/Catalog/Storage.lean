import EndpointCatalog.Catalog.Document
import EndpointCatalog.Fault

namespace EndpointCatalog

/-- What changes a workspace and may fail; what was changed before a failure stays changed. -/
abbrev Change := ExceptT Fault (StateM Workspace)

namespace Change

def step (p : Path) (f : Workspace → Except PathError Workspace) : Change Unit := do
  match f (← get) with
  | .ok w => set w
  | .error e => throw (.file p (.refused e))

end Change

namespace Catalog

/-- Where a catalog is written before it takes its place. -/
def draftOf (p : Path) : Path := p.withExtension "yaml.tmp"

def save (c : Catalog) (f : Format) (p : Path) : Change Unit := do
  Change.step (draftOf p) (·.write (draftOf p) (Text.Bytes.encode (c.write f)))
  Change.step p (·.rename (draftOf p) p)

end Catalog

end EndpointCatalog
