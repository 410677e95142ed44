import EndpointCatalog.Fault
import EndpointCatalog.Settings.Basic
import EndpointCatalog.Toml.Section

namespace EndpointCatalog

open Toml

namespace Settings

def text? : Value → Option String
  | .text s => some s
  | _ => none

def texts? : Value → Option (List String)
  | .list vs => vs.mapM text?
  | _ => none

def known? (names : List String) (es : List (String × Value)) : Option (List (String × Value)) :=
  let es := es.filter (names.contains ·.1)
  if (es.map (·.1)).eraseDups.length = es.length then some es else none

/-- The values of a table by name, or those of a list in the order of the names. -/
def fields? (names : List String) : Value → Option (List (String × Value))
  | .table _ es => known? names es
  | .list vs => if vs.length ≤ names.length then some (names.zip vs) else none
  | _ => none

def entryOr {α : Type} (es : List (String × Value)) (name : String) (read? : Value → Option α)
    (usual : α) : Option α :=
  match es.lookup name with
  | some v => read? v
  | none => some usual

def scan? (v : Value) : Option ScanRules := do
  let es ← fields? ["file_suffix", "controllers_root", "exclude"] v
  let usual : ScanRules := {}
  return {
    fileSuffix := ← entryOr es "file_suffix" text? usual.fileSuffix
    controllersRoot := ← entryOr es "controllers_root" text? usual.controllersRoot
    exclude := ← entryOr es "exclude" texts? usual.exclude }

def conventions? (v : Value) : Option Conventions := do
  let es ← fields? ["action_suffix", "controller_suffix", "service_marker", "models_dir"] v
  let usual : Conventions := {}
  return {
    actionSuffix := ← entryOr es "action_suffix" text? usual.actionSuffix
    controllerSuffix := ← entryOr es "controller_suffix" text? usual.controllerSuffix
    serviceMarker := ← entryOr es "service_marker" text? usual.serviceMarker
    modelsDir := ← entryOr es "models_dir" text? usual.modelsDir }

/-- A verb by its name, which may also be the name of an empty table between braces. -/
def verb? : Value → Option Verb
  | .text s => Verb.ofText? s
  | .table .braces [(s, .table _ [])] => Verb.ofText? s
  | _ => none

def inherited? (v : Value) : Option InheritedEntry := do
  let es ← fields? ["base_class", "command", "method"] v
  return {
    baseClass := ← text? (← es.lookup "base_class")
    command := ← text? (← es.lookup "command")
    verb := ← verb? (← es.lookup "method") }

def allInherited? : Value → Option (List InheritedEntry)
  | .list vs => vs.mapM inherited?
  | _ => none

def parse? (text : String) : Option Settings := do
  let es ← known? ["scan", "conventions", "base_defaults"] (← Toml.parse? text)
  return {
    scan := ← entryOr es "scan" scan? {}
    conventions := ← entryOr es "conventions" conventions? {}
    inherited := ← entryOr es "base_defaults" allInherited? [] }

/-- The settings in a file; a file that is missing says nothing. -/
def load (w : Workspace) (p : Path) : Except Fault Settings :=
  match w.readText p with
  | .ok text => match parse? text with
    | some s => .ok s
    | none => .error (.settings p)
  | .error (.refused .notFound) => .ok {}
  | .error e => .error (.file p e)

end Settings

end EndpointCatalog
