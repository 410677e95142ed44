import EndpointCatalog.Yaml.Token

namespace EndpointCatalog.Yaml

structure Marks where
  anchor? : Option Nat := none
  tag? : Option (List Char) := none
deriving DecidableEq, Repr

inductive Node where
  | scalar (marks : Marks) (plain : Bool) (text : List Char)
  | aliasOf (anchor : Nat)
  | list (marks : Marks) (items : List Node)
  | fields (marks : Marks) (entries : List (Node × Node))

namespace Node

def blank : Node := scalar {} true []

end Node

/-- The tokens that are left, and the numbers of the anchors that were seen. -/
structure Composer where
  tokens : List Token
  anchors : List (List Char × Nat) := []
  handles : List (List Char × List Char) := []

namespace Composer

variable (c : Composer)

def next? : Option Token := c.tokens.head?

def skip : Composer := { c with tokens := c.tokens.drop 1 }

/-- Numbers an anchor by how many names are known; a name that comes again gets a new number. -/
def addAnchor (name : List Char) : Nat × Composer :=
  let id := c.anchors.length
  (id, { c with anchors := (name, id) :: c.anchors.filter (·.1 ≠ name) })

def fullTag? (handle suffix : List Char) : Option (List Char) :=
  if handle.isEmpty then some suffix
  else (c.handles.lookup handle).map (· ++ suffix)

def anchor? : Option Nat × Composer :=
  match c.next? with
  | some (.anchor name) => let (id, c) := c.skip.addAnchor name; (some id, c)
  | _ => (none, c)

def tag? : Option (Option (List Char) × Composer) :=
  match c.next? with
  | some (.tag handle suffix) => (c.fullTag? handle suffix).map fun t => (some t, c.skip)
  | _ => some (none, c)

def marks? : Option (Marks × Composer) := do
  let (anchor?, c) := c.anchor?
  let (tag?, c) ← c.tag?
  let (anchor?, c) := if anchor?.isNone then c.anchor? else (anchor?, c)
  pure (⟨anchor?, tag?⟩, c)

def ends (ts : List Token) : Bool :=
  match c.next? with
  | none => false
  | some t => ts.contains t

mutual

/-- Reads a node; `block` allows block collections, and `loose` a list that is not indented. The
number bounds the depth of the reading. -/
def node? (n : Nat) (block loose : Bool) (c : Composer) : Option (Node × Composer) :=
  match n with
  | 0 => none
  | n + 1 =>
    match c.next? with
    | some (.aliasOf name) => (c.anchors.lookup name).map (.aliasOf ·, c.skip)
    | _ => do
      let (m, c) ← c.marks?
      match c.next? with
      | some (.scalar plain text) => pure (.scalar m plain text, c.skip)
      | some .flowSequence =>
        let (items, c) ← flowItems? n true c.skip
        pure (.list m items, c)
      | some .flowMapping =>
        let (entries, c) ← flowEntries? n true c.skip
        pure (.fields m entries, c)
      | t =>
        if loose && t == some .blockEntry then
          let (items, c) ← looseItems? n c
          pure (.list m items, c)
        else if block && t == some .blockSequence then
          let (items, c) ← blockItems? n c.skip
          pure (.list m items, c)
        else if block && t == some .blockMapping then
          let (entries, c) ← blockEntries? n c.skip
          pure (.fields m entries, c)
        else if m.anchor?.isSome || m.tag?.isSome then pure (.scalar m true [], c)
        else none

def nodeOr? (n : Nat) (ts : List Token) (block loose : Bool) (c : Composer) :
    Option (Node × Composer) :=
  match n with
  | 0 => none
  | n + 1 => if c.ends ts then some (.blank, c) else node? n block loose c

def blockItems? (n : Nat) (c : Composer) : Option (List Node × Composer) :=
  match n with
  | 0 => none
  | n + 1 =>
    match c.next? with
    | some .blockEntry => do
      let (v, c) ← nodeOr? n [.blockEntry, .blockEnd] true false c.skip
      let (vs, c) ← blockItems? n c
      pure (v :: vs, c)
    | some .blockEnd => some ([], c.skip)
    | _ => none

/-- The items of a list that is not indented under its key. -/
def looseItems? (n : Nat) (c : Composer) : Option (List Node × Composer) :=
  match n with
  | 0 => none
  | n + 1 =>
    match c.next? with
    | some .blockEntry => do
      let (v, c) ← nodeOr? n [.blockEntry, .key, .value, .blockEnd] true false c.skip
      let (vs, c) ← looseItems? n c
      pure (v :: vs, c)
    | _ => some ([], c)

def blockEntries? (n : Nat) (c : Composer) : Option (List (Node × Node) × Composer) :=
  match n with
  | 0 => none
  | n + 1 =>
    match c.next? with
    | some .key => do
      let (k, c) ← nodeOr? n [.key, .value, .blockEnd] true true c.skip
      let (v, c) ←
        if c.next? = some .value then nodeOr? n [.key, .value, .blockEnd] true true c.skip
        else some (.blank, c)
      let (es, c) ← blockEntries? n c
      pure ((k, v) :: es, c)
    | some .blockEnd => some ([], c.skip)
    | _ => none

/-- The items of a flow list; a key makes an item that is a collection of one entry. -/
def flowItems? (n : Nat) (first : Bool) (c : Composer) : Option (List Node × Composer) :=
  match n with
  | 0 => none
  | n + 1 =>
    if c.next? = some .flowSequenceEnd then some ([], c.skip)
    else if !first && c.next? != some .flowEntry then none
    else
      let c := if first then c else c.skip
      match c.next? with
      | some .flowSequenceEnd => some ([], c.skip)
      | some .key => do
        let c := c.skip
        let (k, c) ←
          if c.ends [.value, .flowEntry, .flowSequenceEnd] then some (.blank, c.skip)
          else node? n false false c
        let (v, c) ←
          if c.next? = some .value then
            nodeOr? n [.flowEntry, .flowSequenceEnd] false false c.skip
          else some (.blank, c)
        let (vs, c) ← flowItems? n false c
        pure (.fields {} [(k, v)] :: vs, c)
      | _ => do
        let (v, c) ← node? n false false c
        let (vs, c) ← flowItems? n false c
        pure (v :: vs, c)

def flowEntries? (n : Nat) (first : Bool) (c : Composer) :
    Option (List (Node × Node) × Composer) :=
  match n with
  | 0 => none
  | n + 1 =>
    if c.next? = some .flowMappingEnd then some ([], c.skip)
    else if !first && c.next? != some .flowEntry then none
    else
      let c := if first then c else c.skip
      match c.next? with
      | some .flowMappingEnd => some ([], c.skip)
      | some .key => do
        let (k, c) ← nodeOr? n [.value, .flowEntry, .flowMappingEnd] false false c.skip
        let (v, c) ←
          if c.next? = some .value then
            nodeOr? n [.flowEntry, .flowMappingEnd] false false c.skip
          else some (.blank, c)
        let (es, c) ← flowEntries? n false c
        pure ((k, v) :: es, c)
      | _ => do
        let (k, c) ← node? n false false c
        let (es, c) ← flowEntries? n false c
        pure ((k, .blank) :: es, c)

end

def usualHandles : List (List Char × List Char) :=
  [(['!'], ['!']), (['!', '!'], "tag:yaml.org,2002:".toList)]

def directives? (seen : Bool) (handles : List (List Char × List Char)) :
    List Token → Option (List (List Char × List Char) × List Token)
  | .version major minor :: ts =>
    if seen || major != 1 || (minor != 1 && minor != 2) then none
    else directives? true handles ts
  | .tagHandle h lead :: ts =>
    if (handles.lookup h).isSome then none else directives? seen ((h, lead) :: handles) ts
  | .documentStart :: ts => some (handles, ts)
  | _ => none

def startsDocument (ts : List Token) : Bool :=
  match ts with
  | .version _ _ :: _ => true
  | .tagHandle _ _ :: _ => true
  | .documentStart :: _ => true
  | _ => false

def isEmptyDocument (ts : List Token) : Bool :=
  ts.isEmpty || startsDocument ts || ts.head? == some .documentEnd

/-- The one document of some tokens, if they hold one; no tokens hold no document. -/
def document? (ts : List Token) : Option (Option Node) := do
  if ts.isEmpty then return none
  let (handles, rest) ← if startsDocument ts then directives? false [] ts else some ([], ts)
  let c : Composer := { tokens := rest, handles := handles ++ usualHandles }
  let (v, c) ←
    if startsDocument ts && isEmptyDocument rest then some (.blank, c)
    else node? (8 * rest.length + 8) true false c
  if (c.tokens.dropWhile (· == .documentEnd)).isEmpty then pure (some v) else none

end Composer

namespace Node

mutual

def anchored : Node → List (Nat × Node)
  | scalar m p t => (m.anchor?.map (·, scalar m p t)).toList
  | aliasOf _ => []
  | list m vs => (m.anchor?.map (·, list m vs)).toList ++ anchoredItems vs
  | fields m es => (m.anchor?.map (·, fields m es)).toList ++ anchoredEntries es

def anchoredItems : List Node → List (Nat × Node)
  | [] => []
  | v :: vs => anchored v ++ anchoredItems vs

def anchoredEntries : List (Node × Node) → List (Nat × Node)
  | [] => []
  | (k, v) :: es => anchored k ++ anchored v ++ anchoredEntries es

end

end Node

/-- A document: its root, if it has one, and what its anchors stand for, the latest first. -/
structure Document where
  root? : Option Node
  anchors : List (Nat × Node)

def document? (text : List Char) : Option Document := do
  let ts ← tokens? text
  let root? ← Composer.document? ts
  pure ⟨root?, (root?.map fun v => v.anchored.reverse).getD []⟩

namespace Document

def resolve? (d : Document) : Node → Option Node
  | .aliasOf id => d.anchors.lookup id
  | v => some v

end Document

end EndpointCatalog.Yaml
