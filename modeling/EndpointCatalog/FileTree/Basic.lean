import EndpointCatalog.Path.Basic
import EndpointCatalog.Text.Bytes

namespace EndpointCatalog

open Text

inductive FileTree where
  | file (content : Bytes)
  | dir (entries : List (String × FileTree))
deriving BEq

inductive PathError where
  | notFound
  | notDirectory
  | isDirectory
  | busy
deriving DecidableEq, Repr

namespace PathError

def message : PathError → String
  | notFound => "No such file or directory (os error 2)"
  | notDirectory => "Not a directory (os error 20)"
  | isDirectory => "Is a directory (os error 21)"
  | busy => "Device or resource busy (os error 16)"

end PathError

namespace FileTree

def isDir : FileTree → Bool
  | file _ => false
  | dir _ => true

def get? : FileTree → List String → Option FileTree
  | t, [] => some t
  | file _, _ :: _ => none
  | dir es, n :: ns => (es.lookup n).bind (get? · ns)

/-- Changes what has the name `n`, or adds it at the end. -/
def alter (n : String) (f : Option FileTree → FileTree) :
    List (String × FileTree) → List (String × FileTree)
  | [] => [(n, f none)]
  | (m, t) :: es => if m = n then (m, f (some t)) :: es else (m, t) :: alter n f es

/-- Puts `new` at the end of a list of names, with the directories that lead to it. -/
def put (t : FileTree) (names : List String) (new : FileTree) : FileTree :=
  match names, t with
  | [], _ => new
  | n :: ns, file _ => dir [(n, put (dir []) ns new)]
  | n :: ns, dir es => dir (alter n (fun t => put (t.getD (dir [])) ns new) es)

def erase : List String → FileTree → FileTree
  | _, file b => file b
  | [], dir es => dir es
  | [n], dir es => dir (es.filter (·.1 ≠ n))
  | n :: m :: ns, dir es =>
    dir (es.map fun e => if e.1 = n then (e.1, erase (m :: ns) e.2) else e)

mutual

/-- The files below a tree, each by the names that lead to it; `skip` passes over names. -/
def files (skip : String → Bool) : FileTree → List (List String)
  | file _ => [[]]
  | dir es => filesIn skip es

def filesIn (skip : String → Bool) : List (String × FileTree) → List (List String)
  | [] => []
  | (n, t) :: es => (if skip n then [] else (files skip t).map (n :: ·)) ++ filesIn skip es

end

end FileTree

/-- A file tree and the directory in it that relative paths start from. -/
structure Workspace where
  tree : FileTree
  cwd : List String := []

namespace Workspace

/-- The segments of a path that lead somewhere, `.` among them. -/
def steps (p : Path) : List String := (p.segments.filter (· ≠ [])).map String.ofList

def start (w : Workspace) (p : Path) : List String := if p.isAbsolute then [] else w.cwd

def endsInSeparator (p : Path) : Bool := p.text.toList.getLast? == some '/'

def follow (t : FileTree) (place : List String) : List String → Except PathError (List String)
  | [] => .ok place
  | n :: ns =>
    match t.get? place with
    | none => .error .notFound
    | some (.file _) => .error .notDirectory
    | some (.dir _) =>
      if n = "." then follow t place ns
      else if n = ".." then follow t place.dropLast ns
      else match t.get? (place ++ [n]) with
        | none => .error .notFound
        | some _ => follow t (place ++ [n]) ns

def resolve (w : Workspace) (p : Path) : Except PathError (List String × FileTree) := do
  if p.text = "" then throw .notFound
  let place ← follow w.tree (w.start p) (steps p)
  match w.tree.get? place with
  | none => throw .notFound
  | some (.file b) => if endsInSeparator p then throw .notDirectory else pure (place, .file b)
  | some (.dir es) => pure (place, .dir es)

def isDir (w : Workspace) (p : Path) : Bool :=
  match w.resolve p with
  | .ok (_, .dir _) => true
  | _ => false

def isFile (w : Workspace) (p : Path) : Bool :=
  match w.resolve p with
  | .ok (_, .file _) => true
  | _ => false

def read (w : Workspace) (p : Path) : Except PathError Bytes := do
  match ← w.resolve p with
  | (_, .file b) => pure b
  | (_, .dir _) => throw .isDirectory

def member (w : Workspace) (p : Path) : Except PathError (List String × String) := do
  match (steps p).getLast? with
  | none => if p.text = "" then throw .notFound else throw .isDirectory
  | some n =>
    let place ← follow w.tree (w.start p) (steps p).dropLast
    match w.tree.get? place with
    | some (.dir _) => pure (place, n)
    | some (.file _) => throw .notDirectory
    | none => throw .notFound

def isDots (n : String) : Bool := n == "." || n == ".."

/-- Gives a file a new content; the file is made if it is missing, a directory is not. -/
def write (w : Workspace) (p : Path) (content : Bytes) : Except PathError Workspace := do
  let (place, n) ← w.member p
  if endsInSeparator p || isDots n then throw .isDirectory
  match w.tree.get? (place ++ [n]) with
  | some (.dir _) => throw .isDirectory
  | _ => pure { w with tree := w.tree.put (place ++ [n]) (.file content) }

/-- Moves the file at `source` to `target`, over a file that is there. -/
def rename (w : Workspace) (source target : Path) : Except PathError Workspace := do
  let (place, n) ← w.member source
  let (place', n') ← w.member target
  if isDots n' then throw .busy
  match w.tree.get? (place ++ [n]) with
  | none | some (.dir _) => throw .notFound
  | some (.file b) =>
    if endsInSeparator target then throw .notDirectory
    match w.tree.get? (place' ++ [n']) with
    | some (.dir _) => throw .isDirectory
    | _ => pure { w with tree := (w.tree.erase (place ++ [n])).put (place' ++ [n']) (.file b) }

end Workspace

end EndpointCatalog
