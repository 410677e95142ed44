import EndpointCatalog.Controller.Dialect
import EndpointCatalog.FileTree.Basic

namespace EndpointCatalog

open Text.Blank Text.Search Text.Casing

structure Facts where
  module : String := ""
  controller : String := ""
  fileName : String := ""
  baseClass : String := ""
  isAbstract : Bool := false
  modelFile? : Option Path := none
deriving DecidableEq, Repr

namespace Facts

/-- The third component of a path from its end, in lower case. -/
def moduleOf (p : Path) : String :=
  match p.components.reverse[2]? with
  | some c => lowercase c.text
  | none => ""

/-- Whether a text starts with `lead`; the case of ASCII letters does not count. -/
def leads : List Char → List Char → Bool
  | [], _ => true
  | _ :: _, [] => false
  | l :: ls, c :: cs => l.toLower == c.toLower && leads ls cs

def stemOf (fileName suffix : List Char) : List Char :=
  (before? (leads suffix) fileName).getD fileName

/-- Lower case, with `_` before each capital. -/
def snakeTail : List Char → List Char
  | [] => []
  | c :: cs => if c.isUpper then '_' :: c.toLower :: snakeTail cs else c.toLower :: snakeTail cs

def snake : List Char → List Char
  | [] => []
  | c :: cs => c.toLower :: snakeTail cs

def controllerOf (fileName suffix : String) : String :=
  String.ofList (snake (stemOf fileName.toList suffix.toList))

def lastSegment (cs : List Char) : List Char := (cs.reverse.takeWhile (· ≠ '\\')).reverse

def classOf (d : Dialect) (source : List Char) : String × Bool :=
  match d.classHeader.find? source with
  | none => ("", false)
  | some m =>
    (String.ofList (lastSegment ((m.group? 2).getD [])), m.group? 1 == some "abstract".toList)

/-- The class that the first field found names as the model. -/
def modelClass? (d : Dialect) (source : List Char) : Option (List Char) :=
  match d.modelFields.findSome? (·.find? source) with
  | none => none
  | some m => (m.group? 1).filter (!·.isEmpty)

def modelPath (className : List Char) : Path :=
  ⟨String.ofList (replace '\\' '/' (className.dropWhile (· = '\\'))) ++ ".xml"⟩

/-- The description of the model, if the source names a model and `isFile` finds it. -/
def modelOf? (d : Dialect) (isFile : Path → Bool) (p : Path) (source : List Char) :
    Option Path := do
  let className ← modelClass? d source
  let app ← p.ancestor? 5
  let model := (app.join ⟨d.conventions.modelsDir⟩).join (modelPath className)
  if isFile model then some model else none

def ofSource (d : Dialect) (isFile : Path → Bool) (p : Path) (source : List Char) : Facts :=
  let fileName := p.fileName?.getD ""
  let (baseClass, isAbstract) := classOf d source
  { module := moduleOf p
    controller := controllerOf fileName d.conventions.controllerSuffix
    fileName := fileName
    baseClass := baseClass
    isAbstract := isAbstract
    modelFile? := modelOf? d isFile p source }

def kind (f : Facts) (marker : String) : Kind := .classify f.isAbstract f.controller marker

def endpoint (f : Facts) (kind : Kind) (verb : Verb) (command : String)
    (parameters : List String) : Endpoint where
  verb := verb
  module := f.module
  controller := f.controller
  isAbstract := f.isAbstract
  baseClass := f.baseClass
  command := command
  parameters := parameters
  fileName := f.fileName
  modelFile? := f.modelFile?
  kind := kind

end Facts

end EndpointCatalog
