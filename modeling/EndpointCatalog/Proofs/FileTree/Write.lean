import EndpointCatalog.Proofs.FileTree.Changes

namespace EndpointCatalog

open Text

namespace Workspace

open FileTree

variable {t u : FileTree} {w v : Workspace} {p : Path} {place d : List String} {n : String}
  {ns dots : List String} {b : Bytes} {file? : Option Bytes}

theorem isDots_eq_false : isDots n = false ↔ n ≠ "." ∧ n ≠ ".." := by
  rw [isDots, Bool.or_eq_false_iff, beq_eq_false_iff_ne, beq_eq_false_iff_ne]

theorem follow_append (t : FileTree) (place ns ms : List String) :
    follow t place (ns ++ ms) = (follow t place ns).bind fun d => follow t d ms := by
  induction ns generalizing place with
  | nil => rfl
  | cons n ns ih =>
    rw [List.cons_append, follow_cons, follow_cons]
    split
    · rfl
    · rfl
    · split
      · exact ih place
      · split
        · exact ih place.dropLast
        · split
          · rfl
          · exact ih (place ++ [n])

theorem contentAt?_of_follow (h : follow t place ns = .ok d) (hd : t.contentAt? d = some none) :
    t.contentAt? place = some none := by
  cases ns with
  | nil =>
    obtain rfl := Except.ok.inj h
    exact hd
  | cons n ns =>
    rw [follow_cons] at h
    split at h
    · cases h
    · cases h
    · assumption

/-- What leads to a directory leads there wherever the directories are the same. -/
theorem follow_of_sameDirs (hs : t.SameDirs u) (h : follow t place ns = .ok d)
    (hd : t.contentAt? d = some none) : follow u place ns = .ok d := by
  induction ns generalizing place with
  | nil => exact h
  | cons n ns ih =>
    have hp := contentAt?_of_follow h hd
    rw [follow_cons, hp] at h
    rw [follow_cons, (hs place).mp hp]
    dsimp only at h ⊢
    split
    · rename_i hn
      rw [if_pos hn] at h
      exact ih h
    · rename_i hn
      rw [if_neg hn] at h
      split
      · rename_i hn
        rw [if_pos hn] at h
        exact ih h
      · rename_i hn
        rw [if_neg hn] at h
        split at h
        · cases h
        · rw [(hs _).mp (contentAt?_of_follow h hd)]
          exact ih h

theorem follow_name (hn : isDots n = false) (hd : t.contentAt? d = some none) :
    follow t d (n :: ns) =
      if (t.contentAt? (d ++ [n])).isSome then follow t (d ++ [n]) ns else .error .notFound := by
  obtain ⟨hn, hu⟩ := isDots_eq_false.mp hn
  rw [follow_cons, hd]
  refine (if_neg hn).trans ((if_neg hu).trans ?_)
  cases t.contentAt? (d ++ [n]) <;> rfl

theorem follow_dots (hd : ∀ m ∈ dots, m = ".") (t : FileTree) (place : List String) :
    follow t place dots =
      if dots = [] then .ok place
      else match t.contentAt? place with
        | none => .error .notFound
        | some (some _) => .error .notDirectory
        | some none => .ok place := by
  induction dots with
  | nil => rfl
  | cons m dots ih =>
    obtain ⟨rfl, hds⟩ := List.forall_mem_cons.mp hd
    rw [follow_cons, ih hds, if_neg (List.cons_ne_nil _ _)]
    cases t.contentAt? place with
    | none => rfl
    | some c =>
      cases c with
      | some b => rfl
      | none => exact ite_self _

/-- What is found at a path that goes through a directory to a name, and by dots from there. -/
theorem found_of_steps (hs : steps p = ns ++ n :: dots) (hn : isDots n = false)
    (hd : ∀ m ∈ dots, m = ".") (hf : follow w.tree (w.start p) ns = .ok d)
    (hc : w.tree.contentAt? d = some none) :
    w.found p = match w.tree.contentAt? (d ++ [n]) with
      | none => .error .notFound
      | some (some b) =>
        if dots = [] ∧ endsInSeparator p = false then .ok (d ++ [n], some b)
        else .error .notDirectory
      | some none => .ok (d ++ [n], none) := by
  have hp : p.text ≠ "" := by
    intro h
    have he : steps p = [] := by
      rw [steps, Path.segments, h]
      rfl
    rw [he] at hs
    exact List.append_ne_nil_of_right_ne_nil ns (List.cons_ne_nil n dots) hs.symm
  rw [found_eq, if_neg hp, hs, follow_append, hf]
  change (follow w.tree d (n :: dots)).bind _ = _
  rw [follow_name hn hc, follow_dots hd]
  cases hm : w.tree.contentAt? (d ++ [n]) with
  | none => rfl
  | some c =>
    rw [Option.isSome_some, if_pos rfl]
    -- dots behind a name lead on only from a directory
    by_cases hne : dots = []
    · subst hne
      rw [if_pos rfl]
      dsimp only [Except.bind]
      rw [hm]
      cases c with
      | none => rfl
      | some b => cases endsInSeparator p <;> rfl
    · rw [if_neg hne]
      cases c with
      | none =>
        dsimp only [Except.bind]
        rw [hm]
      | some b => exact (if_neg fun h => hne h.1).symm

theorem member_of_steps (hs : steps p = ns ++ [n]) :
    w.member p = (follow w.tree (w.start p) ns).bind fun d => match w.tree.contentAt? d with
      | none => .error .notFound
      | some (some _) => .error .notDirectory
      | some none => .ok (d, n) := by
  rw [member, hs, List.getLast?_concat, List.dropLast_concat]
  cases follow w.tree (w.start p) ns with
  | error e => rfl
  | ok d =>
    dsimp only [Except.bind, bind]
    rw [contentAt?]
    cases w.tree.get? d with
    | none => rfl
    | some s => cases s <;> rfl

theorem member_eq_ok :
    w.member p = .ok (d, n) ↔
      ∃ ns, steps p = ns ++ [n] ∧ follow w.tree (w.start p) ns = .ok d ∧
        w.tree.contentAt? d = some none := by
  constructor
  · intro h
    cases hs : (steps p).getLast? with
    | none =>
      rw [member, hs] at h
      dsimp only at h
      split at h <;> cases h
    | some m =>
      obtain ⟨ns, hns⟩ := List.getLast?_eq_some_iff.mp hs
      rw [member_of_steps hns] at h
      cases hf : follow w.tree (w.start p) ns with
      | error e => rw [hf] at h; cases h
      | ok q =>
        rw [hf, Except.bind] at h
        split at h
        · cases h
        · cases h
        · rename_i hc
          obtain ⟨rfl, rfl⟩ := Prod.mk.inj (Except.ok.inj h)
          exact ⟨ns, hns, hf, hc⟩
  · rintro ⟨ns, hns, hf, hc⟩
    rw [member_of_steps hns, hf, Except.bind, hc]

/-- Whether a path names a member of the directory at `place` where a file may be. -/
structure Admits (w : Workspace) (p : Path) (place : List String) (n : String) : Prop where
  member : w.member p = .ok (place, n)
  name : isDots n = false
  file : endsInSeparator p = false
  free : w.tree.contentAt? (place ++ [n]) ≠ some none

theorem member_of_sameDirs (hs : w.tree.SameDirs u) (h : w.member p = .ok (d, n)) :
    { w with tree := u }.member p = .ok (d, n) := by
  obtain ⟨ns, hns, hf, hd⟩ := member_eq_ok.mp h
  exact member_eq_ok.mpr ⟨ns, hns, follow_of_sameDirs hs hf hd, (hs d).mp hd⟩

theorem Admits.of_sameDirs (h : w.Admits p place n) (hs : w.tree.SameDirs u) :
    { w with tree := u }.Admits p place n where
  member := member_of_sameDirs hs h.member
  name := h.name
  file := h.file
  free := (hs _).not.mp h.free

theorem Admits.dir (h : w.Admits p place n) : w.tree.contentAt? place = some none := by
  obtain ⟨_, -, -, hd⟩ := member_eq_ok.mp h.member
  exact hd

theorem write_eq_ok :
    w.write p b = .ok v ↔ ∃ place n, w.Admits p place n ∧
      v = { w with tree := w.tree.put (place ++ [n]) (.file b) } := by
  constructor
  · intro h
    rw [write] at h
    cases hm : w.member p with
    | error e => rw [hm] at h; cases h
    | ok r =>
      obtain ⟨place, n⟩ := r
      rw [hm] at h
      dsimp only [bind, Except.bind] at h
      split at h
      · cases h
      · rename_i hn
        obtain ⟨hs, hn⟩ := Bool.or_eq_false_iff.mp (Bool.eq_false_iff.mpr hn)
        split at h
        · cases h
        · rename_i hf
          exact ⟨place, n, ⟨hm, hn, hs, contentAt?_ne_dir.mpr hf⟩, (Except.ok.inj h).symm⟩
  · rintro ⟨place, n, ⟨hm, hn, hs, hf⟩, rfl⟩
    rw [write, hm]
    dsimp only [bind, Except.bind]
    rw [hs, hn, Bool.or_false, if_neg Bool.false_ne_true]
    split
    · rename_i he
      exact absurd he (contentAt?_ne_dir.mp hf _)
    · rfl

theorem rename_eq_ok {q : Path} :
    w.rename p q = .ok v ↔ ∃ place n place' n' b, w.member p = .ok (place, n) ∧
      w.tree.contentAt? (place ++ [n]) = some (some b) ∧ w.Admits q place' n' ∧
        v = { w with
          tree := (w.tree.erase (place ++ [n])).put (place' ++ [n']) (.file b) } := by
  constructor
  · intro h
    rw [rename] at h
    cases hm : w.member p with
    | error e => rw [hm] at h; cases h
    | ok r =>
      cases hm' : w.member q with
      | error e => rw [hm, hm'] at h; cases h
      | ok r' =>
        obtain ⟨place, n⟩ := r
        obtain ⟨place', n'⟩ := r'
        rw [hm, hm'] at h
        dsimp only [bind, Except.bind] at h
        split at h
        · cases h
        · rename_i hn
          split at h
          · cases h
          · cases h
          · rename_i b hb
            split at h
            · cases h
            · rename_i hs
              split at h
              · cases h
              · rename_i hf
                exact ⟨place, n, place', n', b, rfl, contentAt?_eq_file.mpr hb,
                  ⟨hm', Bool.eq_false_iff.mpr hn, Bool.eq_false_iff.mpr hs,
                    contentAt?_ne_dir.mpr hf⟩, (Except.ok.inj h).symm⟩
  · rintro ⟨place, n, place', n', b, hm, hb, ⟨hm', hn, hs, hf⟩, rfl⟩
    rw [rename, hm, hm']
    dsimp only [bind, Except.bind]
    rw [hn, if_neg Bool.false_ne_true, contentAt?_eq_file.mp hb]
    dsimp only
    rw [hs, if_neg Bool.false_ne_true]
    split
    · rename_i he
      exact absurd he (contentAt?_ne_dir.mp hf _)
    · rfl

end Workspace

end EndpointCatalog
