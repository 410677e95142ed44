import EndpointCatalog.Endpoint
import EndpointCatalog.Groups
import EndpointCatalog.Repository

namespace EndpointCatalog

structure ModelLink where
  link : String
  name : String
deriving DecidableEq, Repr

structure Controller where
  kind : Kind
  fileName : String
  isAbstract : Bool
  baseClass : String
  uses : List ModelLink
  endpoints : List Endpoint
deriving DecidableEq, Repr

structure FileEndpoints where
  path : Path
  endpoints : List Endpoint
deriving DecidableEq, Repr

structure Catalog where
  modules : Groups Controller := []
deriving DecidableEq, Repr

namespace ModelLink

def ofFile (r : Repository) (model : Path) : ModelLink :=
  ⟨r.sourceUrl model, model.fileName?.getD ""⟩

end ModelLink

namespace FileEndpoints

def controller? (r : Repository) (f : FileEndpoints) : Option (String × Controller) :=
  f.endpoints.head?.map fun e =>
    (e.module,
      { kind := e.kind
        fileName := e.fileName
        isAbstract := e.isAbstract
        baseClass := e.baseClass
        uses := (e.modelFile?.map (ModelLink.ofFile r)).toList
        endpoints := f.endpoints })

/-- In the order of their paths; files of one path keep their places. -/
def sort (fs : List FileEndpoints) : List FileEndpoints :=
  fs.mergeSort fun a b => (a.path.compare b.path).isLE

end FileEndpoints

namespace Catalog

def ofFiles (r : Repository) (fs : List FileEndpoints) : Catalog where
  modules :=
    ((FileEndpoints.sort fs).filterMap (·.controller? r)).foldl (fun gs c => gs.add c.1 c.2) []

def isEmpty (c : Catalog) : Bool := c.modules.isEmpty

def controllers (c : Catalog) : List Controller := c.modules.values

def endpoints (c : Catalog) : List Endpoint := c.controllers.flatMap (·.endpoints)

end Catalog

end EndpointCatalog
