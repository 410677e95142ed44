import EndpointCatalog.Text.Search

namespace EndpointCatalog

structure Path where
  text : String
deriving DecidableEq, Repr

namespace Path

open Text.Blank Text.Search

inductive Component where
  | root
  | here
  | up
  | name (s : String)
deriving DecidableEq, Repr

namespace Component

def text : Component → String
  | root => "/"
  | here => "."
  | up => ".."
  | name s => s

def rank : Component → Nat
  | root => 0
  | here => 1
  | up => 2
  | name _ => 3

def compare (a b : Component) : Ordering :=
  (Ord.compare a.rank b.rank).then (Ord.compare a.text b.text)

end Component

def segments (p : Path) : List (List Char) := p.text.toList.splitOn '/'

def ofSegments (ss : List (List Char)) : Path := ⟨String.ofList (['/'].intercalate ss)⟩

def component? (s : List Char) : Option Component :=
  if s = [] ∨ s = ['.'] then none
  else if s = ['.', '.'] then some .up
  else some (.name (String.ofList s))

def components (p : Path) : List Component :=
  match p.segments with
  | [] :: s :: ss => .root :: (s :: ss).filterMap component?
  | ['.'] :: ss => .here :: ss.filterMap component?
  | ss => ss.filterMap component?

def isAbsolute (p : Path) : Bool := p.text.toList.head? == some '/'

/-- The order of paths: component by component. -/
def compareComponents : List Component → List Component → Ordering
  | [], [] => .eq
  | [], _ :: _ => .lt
  | _ :: _, [] => .gt
  | a :: as, b :: bs => (a.compare b).then (compareComponents as bs)

def compare (p q : Path) : Ordering := compareComponents p.components q.components

def fileName? (p : Path) : Option String :=
  match p.components.getLast? with
  | some (.name s) => some s
  | _ => none

/-- The segments without those at the end that do not count. -/
def trimSegments (ss : List (List Char)) : List (List Char) :=
  (ss.reverse.dropWhile (component? · |>.isNone)).reverse

def initSegments? (ss : List (List Char)) : Option (List (List Char)) :=
  match trimSegments ss with
  | [] => none
  | s :: ss => some (trimSegments (s :: ss).dropLast)

/-- The path without its last component; the root and the empty path have no parent. -/
def parent? (p : Path) : Option Path :=
  match p.segments with
  | [] :: s :: ss => (initSegments? (s :: ss)).map fun ks =>
      if ks.isEmpty then ⟨"/"⟩ else ofSegments ([] :: ks)
  | ['.'] :: ss => some <| match initSegments? ss with
      | some ks => ofSegments (['.'] :: ks)
      | none => ⟨""⟩
  | ss => (initSegments? ss).map ofSegments

def ancestor? : Nat → Path → Option Path
  | 0, p => some p
  | n + 1, p => p.parent?.bind (ancestor? n)

def join (p q : Path) : Path :=
  if q.isAbsolute then q
  else match p.text.toList.getLast? with
    | none => q
    | some '/' => ⟨p.text ++ q.text⟩
    | some _ => ⟨p.text ++ "/" ++ q.text⟩

/-- A file name up to its last dot; a dot at the front does not count. -/
def stem (name : List Char) : List Char :=
  let before := (name.reverse.dropWhile (· ≠ '.')).drop 1
  if before.isEmpty then name else before.reverse

def withExtension (p : Path) (extension : String) : Path :=
  let ss := trimSegments p.segments
  match p.fileName?, ss.getLast? with
  | some _, some s => ofSegments (ss.dropLast ++ [stem s ++ '.' :: extension.toList])
  | _, _ => p

end Path

end EndpointCatalog
