import EndpointCatalog.Checkout.History
import EndpointCatalog.CommandLine.Reach

namespace EndpointCatalog.Program

open CommandLine

def place (here : String) (p : Path) : List String :=
  let text := if p.isAbsolute then p.text else here ++ "/" ++ p.text
  (Workspace.steps ⟨text⟩).foldl
    (fun ns n => if n = "." then ns else if n = ".." then ns.dropLast else ns ++ [n]) []

def pathOf (names : List String) : String := "/" ++ "/".intercalate names

/-- Reads a file or a directory with all that is in it; links are not followed. -/
partial def readTree (path : String) : IO (Option FileTree) := do
  let p := (← IO.currentDir) / path
  if ← p.isDir then
    let entries ← (← p.readDir).toList.filterMapM fun e => do
      return (← readTree (path ++ "/" ++ e.fileName)).map (e.fileName, ·)
    return some (.dir entries)
  else if ← p.pathExists then
    return some (.file (← IO.FS.readBinFile p).toList)
  else return none

def load (here : String) (w : Workspace) (p : Path) : IO Workspace := do
  let names := place here p
  match ← readTree (pathOf names) with
  | some t => return { w with tree := w.tree.put names t }
  | none =>
    let mut tree := w.tree
    for n in List.range names.length do
      let above := names.take n
      if (tree.get? above).isNone then
        if ← ((← IO.currentDir) / pathOf above).isDir then tree := tree.put above (.dir [])
    return { w with tree }

/-- Writes a file beside its place first and moves it there when it is complete. -/
def store (names : List String) (content : Text.Bytes) : IO Unit := do
  let target := pathOf names
  let draft := (Catalog.draftOf ⟨target⟩).text
  IO.FS.writeBinFile draft (ByteArray.mk content.toArray)
  IO.FS.rename draft target

def environment (names : List String) : IO (List (String × String)) :=
  names.filterMapM fun n => return (← IO.getEnv n).map (n, ·)

def run (i : Invocation) : IO UInt32 := do
  let here := (← IO.currentDir).toString
  let temporary : Path := ⟨(← IO.getEnv "TMPDIR").getD "/tmp"⟩
  let cwd := place here ⟨"."⟩
  let empty : Workspace := { tree := (FileTree.dir []).put cwd (.dir []), cwd }
  let w ← i.task.settingsFile?.toList.foldlM (load here) empty
  let settings := (i.task.settingsFile?.bind fun p => (Settings.load w p).toOption).getD {}
  let w ← (i.task.reach temporary settings.conventions.modelsDir).foldlM (load here) w
  let (result, report) := i.task.perform { git := History.git, temporary } w
  for (names, content) in FileTree.written (some w.tree) report.workspace.tree do
    store names content
  for names in FileTree.removed w.tree report.workspace.tree do
    IO.FS.removeFile (pathOf names)
  for e in report.told (i.filter (← IO.getEnv "OPNCAT_LOG")) do
    IO.eprintln e.text
  IO.print report.output
  match result with
  | .ok () => return 0
  | .error t =>
    IO.eprintln t.message
    return 1

end EndpointCatalog.Program

open EndpointCatalog.CommandLine in
def main (args : List String) : IO UInt32 := do
  let environment ← EndpointCatalog.Program.environment (Stage.access.filterMap (·.environment?))
  match Invocation.parse? (environment.lookup ·) args with
  | some i => EndpointCatalog.Program.run i
  | none =>
    IO.eprintln "usage: opncat [-v | -q] (collect | raw | macro) [options]"
    return 2
