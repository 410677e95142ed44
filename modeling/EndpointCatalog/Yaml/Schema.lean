import EndpointCatalog.Yaml.Implicit
import EndpointCatalog.Yaml.Node

namespace EndpointCatalog.Yaml

namespace Document

variable (d : Document)

def text? (v : Node) : Option String :=
  match d.resolve? v with
  | some (.scalar _ _ s) => some (String.ofList s)
  | _ => none

def items? (v : Node) : Option (List Node) :=
  match d.resolve? v with
  | some (.list _ vs) => some vs
  | some (.scalar _ true []) => some []
  | _ => none

def texts? (v : Node) : Option (List String) := do (← d.items? v).mapM d.text?

def entries? (names : List String) (v : Node) : Option (List (String × Node)) :=
  match d.resolve? v with
  | some (.fields _ es) => do
    let es ← es.mapM fun (k, v) => return (← d.text? k, v)
    if es.all (names.contains ·.1) && (es.map (·.1)).eraseDups.length = es.length then some es
    else none
  | _ => none

/-- The word that a node chooses: a tag of a blank node, or else its text. -/
def word? (v : Node) : Option String :=
  match d.resolve? v with
  | some (.scalar m plain s) =>
    match m.tag? with
    | some ('!' :: w) => if plain && Implicit.isNull s then some (String.ofList w) else none
    | _ => some (String.ofList s)
  | _ => none

mutual

/-- How many places of a node stand for another, counted where they stand; `n` bounds the
depth. -/
def aliases (n : Nat) (v : Node) : Nat :=
  match n, v with
  | 0, _ => 0
  | n + 1, .aliasOf id =>
    match d.anchors.lookup id with
    | some v => aliases n v + 1
    | none => 1
  | _, .scalar _ _ _ => 0
  | n + 1, .list _ vs => aliasesIn n vs
  | n + 1, .fields _ es => aliasesAmong n es

def aliasesIn (n : Nat) : List Node → Nat
  | [] => 0
  | v :: vs => aliases n v + aliasesIn n vs

def aliasesAmong (n : Nat) : List (Node × Node) → Nat
  | [] => 0
  | (k, v) :: es => aliases n k + aliases n v + aliasesAmong n es

end

end Document

namespace Node

mutual

/-- How many parts a node has; a collection counts where it starts and where it ends. -/
def size : Node → Nat
  | scalar _ _ _ => 1
  | aliasOf _ => 1
  | list _ vs => sizeIn vs + 2
  | fields _ es => sizeAmong es + 2

def sizeIn : List Node → Nat
  | [] => 0
  | v :: vs => size v + sizeIn vs

def sizeAmong : List (Node × Node) → Nat
  | [] => 0
  | (k, v) :: es => size k + size v + sizeAmong es

end

end Node

namespace Document

variable (d : Document)

/-- How deep the documents of this library go, with a step for each place that stands for
another. -/
def depth : Nat := 8

/-- Whether the document does not repeat itself more than a hundred times over. -/
def isModest : Bool :=
  match d.root? with
  | some v => d.aliases depth v ≤ 100 * v.size
  | none => true

def rootItems? : Option (List Node) :=
  match d.root? with
  | some v => d.items? v
  | none => some []

end Document

def readList? {α : Type} (read : Document → Node → Option α) (text : String) :
    Option (List α) := do
  let d ← document? text.toList
  if d.isModest then (← d.rootItems?).mapM (read d) else none

end EndpointCatalog.Yaml
