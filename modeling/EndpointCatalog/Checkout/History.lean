import EndpointCatalog.Checkout.Basic

namespace EndpointCatalog

open Text Text.Bytes

/-- The snapshots of a directory, the first one first, and where they came from. -/
structure History where
  commits : List FileTree := []
  origin? : Option String := none

namespace History

def place : String := ".git"

def isPlace (name : String) : Bool := name == place

def content? (t : FileTree) (names : List String) : Option Bytes :=
  match t.get? names with
  | some (.file b) => some b
  | _ => none

def snapshot (t : FileTree) : FileTree :=
  (t.files isPlace).foldl
    (fun s names => s.put names (.file ((content? t names).getD []))) (.dir [])

def last (h : History) : FileTree := h.commits.getLast?.getD (.dir [])

def toTree (h : History) : FileTree :=
  .dir (("commits", .dir (h.commits.zipIdx.map fun c => (toString c.2, c.1))) ::
    (h.origin?.map fun o => ("origin", FileTree.file (encode o))).toList)

def ofTree? (t : FileTree) : Option History :=
  match t.get? [place, "commits"] with
  | some (.dir cs) => some ⟨cs.map (·.2), (content? t [place, "origin"]).bind decode?⟩
  | _ => none

def keep (h : History) (t : FileTree) : FileTree := t.put [place] h.toTree

def commit (t : FileTree) : FileTree :=
  match ofTree? t with
  | none => t
  | some h =>
    let s := snapshot t
    if s == h.last && !h.commits.isEmpty then t
    else keep { h with commits := h.commits ++ [s] } t

def changed (s s' : FileTree) : List (List String) :=
  (s.files isPlace ++ s'.files isPlace).eraseDups.filter fun p => content? s p != content? s' p

/-- Whether a change of a file is in nobody's way: a file of the last snapshot is as it was or
gone, and where there was none there is none. -/
def isFree (t s : FileTree) (names : List String) : Bool :=
  match content? s names with
  | some b => (content? t names).all (· == b)
  | none => (t.get? names).isNone

def change (s' : FileTree) (t : FileTree) (names : List String) : FileTree :=
  match content? s' names with
  | some b => t.put names (.file b)
  | none => t.erase names

/-- The directory `t` with the history `h`, moved forward to `h'`. -/
def forward? (h h' : History) (t : FileTree) : Option FileTree :=
  if h'.commits.isPrefixOf h.commits then some t
  else if !h.commits.isPrefixOf h'.commits then none
  else
    let ps := changed h.last h'.last
    if ps.all (isFree t h.last) then
      some (keep { h with commits := h'.commits } (ps.foldl (change h'.last) t))
    else none

def failure (message : String) (w : Workspace) : Exit × Workspace := (⟨false, encode message⟩, w)

def replace (w : Workspace) (names : List String) (t : FileTree) : Exit × Workspace :=
  (⟨true, []⟩, { w with tree := w.tree.put names t })

def historyAt? (w : Workspace) (p : Path) : Option (List String × FileTree × History) :=
  match w.resolve p with
  | .ok (names, t) => (ofTree? t).map (names, t, ·)
  | .error _ => none

/-- Whether a clone can be made at a place: there is nothing, or an empty directory. -/
def isVacant (w : Workspace) (names : List String) : Bool :=
  match w.tree.get? names with
  | none => (List.range names.length).all fun n =>
      (w.tree.get? (names.take n)).all FileTree.isDir
  | some (.dir es) => es.isEmpty
  | some (.file _) => false

def clone (url : String) (dest : Path) (w : Workspace) : Exit × Workspace :=
  match historyAt? w ⟨url⟩ with
  | none => failure ("fatal: repository '" ++ url ++ "' does not exist") w
  | some (_, _, h) =>
    let names := w.start dest ++ Workspace.steps dest
    if isVacant w names then
      replace w names (keep { h with origin? := some url } h.last)
    else failure ("fatal: destination path '" ++ dest.text ++ "' is not empty") w

def pull (dest : Path) (w : Workspace) : Exit × Workspace :=
  match historyAt? w dest with
  | none => failure "fatal: not a git repository" w
  | some (names, t, h) =>
    match h.origin?.bind fun o => historyAt? w ⟨o⟩ with
    | none => failure "fatal: no such remote repository" w
    | some (_, _, h') =>
      if h'.commits.isEmpty then failure "fatal: nothing to follow" w
      else match forward? h h' t with
        | some t => replace w names t
        | none => failure "fatal: not possible to fast-forward" w

def git : Git
  | ["clone", url, dest], w => some (clone url ⟨dest⟩ w)
  | ["-C", dest, "pull", "--ff-only"], w => some (pull ⟨dest⟩ w)
  | _, w => some (failure "fatal: unknown arguments" w)

end History

end EndpointCatalog
