import EndpointCatalog.Catalog.Survey
import EndpointCatalog.CommandLine.Session
import EndpointCatalog.Settings.Document

namespace EndpointCatalog.CommandLine

open Session

/-- The directory of the sources; those that are not given are fetched. -/
def sources (source? : Option Path) (r : Repository) : Session Path := do
  match source? with
  | some p => pure p
  | none =>
    let dest := (← read).temporary.join ⟨r.name⟩
    doing ("Failed to fetch " ++ r.name ++ " sources") (acquire r.cloneUrl dest)
    pure dest

def summary (c : Catalog) (output : Path) : String :=
  "✓ " ++ toString c.modules.length ++ " modules, " ++ toString c.controllers.length ++
    " controllers, " ++ toString c.endpoints.length ++ " endpoints -> " ++ output.text ++ "\n"

def collect (source? : Option Path) (r : Repository) (output? : Option Path) (format : Format)
    (settings : Path) : Session Unit := do
  let s ← doing ("Failed to load config " ++ settings.text) (look (Settings.load · settings))
  let root ← sources source? r
  let output := output?.getD ⟨r.name ++ ".yaml"⟩
  let catalog ← doing ("Failed to collect controllers under " ++ root.text)
    (look ((Survey.ofSettings s).collect · root r))
  doing ("Failed to write " ++ output.text) (change (catalog.save format output))
  log .catalogWritten
  write (summary catalog output)

end EndpointCatalog.CommandLine
