import EndpointCatalog.FileTree.Basic

namespace EndpointCatalog

open Text

namespace FileTree

def bytes? : FileTree → Option Bytes
  | file b => some b
  | dir _ => none

def contentAt? (t : FileTree) (place : List String) : Option (Option Bytes) :=
  (t.get? place).map bytes?

/-- Whether two trees have the same at each place. -/
def Same (t u : FileTree) : Prop := ∀ place, t.contentAt? place = u.contentAt? place

variable {t u : FileTree} {place : List String} {b : Bytes}

theorem contentAt?_eq_file :
    t.contentAt? place = some (some b) ↔ t.get? place = some (.file b) := by
  rw [contentAt?, Option.map_eq_some_iff]
  constructor
  · rintro ⟨s, hs, hb⟩
    cases s with
    | file b' => exact hs.trans (by rw [Option.some.inj hb])
    | dir es => cases hb
  · exact fun h => ⟨_, h, rfl⟩

theorem contentAt?_eq_dir :
    t.contentAt? place = some none ↔ ∃ es, t.get? place = some (.dir es) := by
  rw [contentAt?, Option.map_eq_some_iff]
  constructor
  · rintro ⟨s, hs, hb⟩
    cases s with
    | file b' => cases hb
    | dir es => exact ⟨es, hs⟩
  · rintro ⟨es, h⟩
    exact ⟨_, h, rfl⟩

theorem get?_append (t : FileTree) (ns ms : List String) :
    t.get? (ns ++ ms) = (t.get? ns).bind (get? · ms) := by
  induction ns generalizing t with
  | nil => rfl
  | cons n ns ih =>
    cases t with
    | file b => rfl
    | dir es =>
      rw [List.cons_append, get?, get?]
      cases es.lookup n with
      | none => rfl
      | some s => exact ih s

theorem Same.of_get? (h : t.Same u) {s s' : FileTree} (hs : t.get? place = some s)
    (hs' : u.get? place = some s') : s.Same s' := by
  intro ns
  have hp := h (place ++ ns)
  rwa [contentAt?, contentAt?, get?_append, get?_append, hs, hs'] at hp

end FileTree

namespace Workspace

open FileTree

variable {t u : FileTree} {w v : Workspace}

/-- A step of following a path, told by what lies at the places that it looks at. -/
theorem follow_cons (t : FileTree) (place : List String) (n : String) (ns : List String) :
    follow t place (n :: ns) =
      match t.contentAt? place with
      | none => .error .notFound
      | some (some _) => .error .notDirectory
      | some none =>
        if n = "." then follow t place ns
        else if n = ".." then follow t place.dropLast ns
        else match t.contentAt? (place ++ [n]) with
          | none => .error .notFound
          | some _ => follow t (place ++ [n]) ns := by
  rw [follow, contentAt?]
  cases t.get? place with
  | none => rfl
  | some s =>
    cases s with
    | file b => rfl
    | dir es =>
      have h : t.contentAt? (place ++ [n]) = (t.get? (place ++ [n])).map bytes? := rfl
      rw [h]
      cases t.get? (place ++ [n]) <;> rfl

theorem follow_congr (h : t.Same u) (place ns : List String) :
    follow t place ns = follow u place ns := by
  induction ns generalizing place with
  | nil => rfl
  | cons n ns ih => simp only [follow_cons, h place, h (place ++ [n]), ih]

theorem resolve_eq (w : Workspace) (p : Path) :
    w.resolve p =
      if p.text = "" then .error .notFound
      else (follow w.tree (w.start p) (steps p)).bind fun place =>
        match w.tree.get? place with
        | none => .error .notFound
        | some (.file b) =>
          if endsInSeparator p then .error .notDirectory else .ok (place, .file b)
        | some (.dir es) => .ok (place, .dir es) := by
  rw [resolve]
  split <;> rfl

/-- Where a path leads to, and what lies there. -/
def found (w : Workspace) (p : Path) : Except PathError (List String × Option Bytes) :=
  (w.resolve p).map fun r => (r.1, r.2.bytes?)

theorem found_eq (w : Workspace) (p : Path) :
    w.found p =
      if p.text = "" then .error .notFound
      else (follow w.tree (w.start p) (steps p)).bind fun place =>
        match w.tree.contentAt? place with
        | none => .error .notFound
        | some (some b) => if endsInSeparator p then .error .notDirectory else .ok (place, some b)
        | some none => .ok (place, none) := by
  rw [found, resolve_eq]
  split
  · rfl
  · cases follow w.tree (w.start p) (steps p) with
    | error e => rfl
    | ok place =>
      rw [Except.bind, Except.bind, contentAt?]
      cases w.tree.get? place with
      | none => rfl
      | some s =>
        cases s with
        | file b =>
          rw [Option.map_some, bytes?]
          cases endsInSeparator p <;> rfl
        | dir es => rfl

theorem get?_of_resolve {p : Path} {place : List String} (h : w.resolve p = .ok (place, t)) :
    p.text ≠ "" ∧ w.tree.get? place = some t := by
  rw [resolve_eq] at h
  split at h
  · cases h
  · rename_i hp
    refine ⟨hp, ?_⟩
    cases hf : follow w.tree (w.start p) (steps p) with
    | error e =>
      rw [hf] at h
      cases h
    | ok q =>
      rw [hf, Except.bind] at h
      split at h
      · cases h
      · rename_i hg
        split at h
        · cases h
        · cases h
          exact hg
      · rename_i hg
        cases h
        exact hg

theorem read_eq (w : Workspace) (p : Path) :
    w.read p = (w.found p).bind fun r => match r.2 with
      | some b => .ok b
      | none => .error .isDirectory := by
  rw [read, found]
  cases w.resolve p with
  | error e => rfl
  | ok r =>
    obtain ⟨place, s⟩ := r
    cases s <;> rfl

theorem isFile_eq (w : Workspace) (p : Path) :
    w.isFile p = match w.found p with
      | .ok (_, some _) => true
      | _ => false := by
  rw [isFile, found]
  cases w.resolve p with
  | error e => rfl
  | ok r =>
    obtain ⟨place, s⟩ := r
    cases s <;> rfl

/-- Whether two workspaces have the same at each place and start from the same directory. -/
def Same (w v : Workspace) : Prop := w.tree.Same v.tree ∧ w.cwd = v.cwd

theorem Same.found (h : w.Same v) (p : Path) : w.found p = v.found p := by
  have hs : w.start p = v.start p := by rw [start, start, h.2]
  simp only [found_eq, hs, follow_congr h.1, h.1 _]

theorem Same.resolve (h : w.Same v) (p : Path) :
    (∃ e, w.resolve p = .error e ∧ v.resolve p = .error e) ∨
      ∃ place t u, w.resolve p = .ok (place, t) ∧ v.resolve p = .ok (place, u) ∧
        t.bytes? = u.bytes? ∧ t.Same u := by
  have hf := h.found p
  rw [Workspace.found, Workspace.found] at hf
  cases hw : w.resolve p with
  | error e =>
    cases hv : v.resolve p with
    | error e' =>
      rw [hw, hv] at hf
      exact .inl ⟨e, rfl, congrArg Except.error (Except.error.inj hf).symm⟩
    | ok r => rw [hw, hv] at hf; cases hf
  | ok r =>
    cases hv : v.resolve p with
    | error e' => rw [hw, hv] at hf; cases hf
    | ok r' =>
      rw [hw, hv] at hf
      obtain ⟨place, t⟩ := r
      obtain ⟨place', u⟩ := r'
      obtain ⟨rfl, hb⟩ := Prod.mk.inj (Except.ok.inj hf)
      exact .inr ⟨place, t, u, rfl, rfl, hb,
        h.1.of_get? (get?_of_resolve hw).2 (get?_of_resolve hv).2⟩

theorem Same.read (h : w.Same v) (p : Path) : w.read p = v.read p := by
  rw [read_eq, read_eq, h.found]

theorem Same.isFile (h : w.Same v) (p : Path) : w.isFile p = v.isFile p := by
  rw [isFile_eq, isFile_eq, h.found]

end Workspace

end EndpointCatalog
