import EndpointCatalog.Endpoint
import EndpointCatalog.Text.Casing

namespace EndpointCatalog

open Text.Search Text.Casing

structure ScanRules where
  fileSuffix : String := "controller.php"
  controllersRoot : String := "mvc/app/controllers"
  exclude : List String := ["core/api/firmwarecontroller.php"]
deriving DecidableEq, Repr

namespace ScanRules

def comparable (p : Path) : List Char := lower (replace '\\' '/' p.text.toList)

/-- Whether a path ends in the suffix and holds the root, and no excluded text; the case of
letters does not count. -/
def accepts (r : ScanRules) (p : Path) : Bool :=
  let text := comparable p
  (lower r.fileSuffix.toList).isSuffixOf text
    && contains (lower r.controllersRoot.toList) text
    && !r.exclude.any fun x => contains (lower x.toList) text

end ScanRules

structure Conventions where
  actionSuffix : String := "Action"
  controllerSuffix : String := "Controller.php"
  serviceMarker : String := "service"
  modelsDir : String := "models"
deriving DecidableEq, Repr

structure InheritedEntry where
  baseClass : String
  command : String
  verb : Verb
deriving DecidableEq, Repr

structure Settings where
  scan : ScanRules := {}
  conventions : Conventions := {}
  inherited : List InheritedEntry := []
deriving DecidableEq, Repr

end EndpointCatalog
