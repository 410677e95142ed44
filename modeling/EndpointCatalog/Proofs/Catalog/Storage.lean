import EndpointCatalog.Catalog.Storage
import EndpointCatalog.Proofs.FileTree.Write
import EndpointCatalog.Proofs.Path.Extension

namespace EndpointCatalog

open Text FileTree Workspace

namespace Workspace

/-- Whether `q` names a file in the directory of the file that `p` names; `p` may go on with
dots. -/
structure Beside (p q : Path) (ns : List String) (n m : String) (dots : List String) : Prop where
  file : steps p = ns ++ n :: dots
  other : steps q = ns ++ [m]
  ne : m ≠ n
  name : isDots n = false
  dots : ∀ d ∈ dots, d = "."
  start : ∀ w : Workspace, w.start q = w.start p

def place? (w : Workspace) (p : Path) : Option (List String) :=
  match w.member p with
  | .ok (place, n) => if isDots n then none else some (place ++ [n])
  | .error _ => none

variable {w : Workspace} {p q : Path} {place d : List String} {n m : String}
  {ns dots : List String} {t u : FileTree} {b : Bytes}

theorem Admits.place? (h : w.Admits p place n) : w.place? p = some (place ++ [n]) := by
  rw [Workspace.place?, h.member]
  exact if_neg (Bool.eq_false_iff.mp h.name)

theorem beside_withExtension {e : String} (hp : p.fileName? = some n) (he : '/' ∉ e.toList)
    (hd : '.' ∈ e.toList) : ∃ ns m dots, Beside p (p.withExtension e) ns n m dots := by
  obtain ⟨front, rest, hs, hs', hr, hn⟩ := Path.segments_withExtension hp he
  have hne : n.toList ≠ [] := fun h => hn.1 (String.toList_inj.mp h)
  refine ⟨(front.filter (· ≠ [])).map String.ofList,
    String.ofList (Path.stem n.toList ++ '.' :: e.toList),
    (rest.filter (· ≠ [])).map String.ofList, ?_, ?_, ?_, ?_, ?_, ?_⟩
  · rw [steps, hs, List.filter_append, List.filter_cons_of_pos (by simpa using hne),
      List.map_append, List.map_cons, String.ofList_toList]
  · rw [steps, hs', List.filter_append, List.filter_cons_of_pos (by simp), List.filter_nil,
      List.map_append, List.map_cons, List.map_nil]
  · rw [Ne, ← String.toList_inj, String.toList_ofList]
    exact Path.stem_append_ne hd _
  · exact isDots_eq_false.mpr ⟨hn.2.1, hn.2.2.1⟩
  · intro d hd
    obtain ⟨r, hr', rfl⟩ := List.mem_map.mp hd
    obtain ⟨hm, hn⟩ := List.mem_filter.mp hr'
    obtain rfl | rfl := hr r hm
    · simp at hn
    · rfl
  · intro w
    rw [start, start, Path.isAbsolute_withExtension hp he]

theorem Beside.other_of_admits (h : Beside p q ns n m dots) {k : String} (hq : w.Admits q d k) :
    k = m ∧ follow w.tree (w.start p) ns = .ok d := by
  obtain ⟨ns', hs, hf, -⟩ := member_eq_ok.mp hq.member
  obtain ⟨rfl, rfl⟩ := List.append_singleton_inj.mp (h.other.symm.trans hs)
  exact ⟨rfl, h.start w ▸ hf⟩

theorem Beside.file_of_admits (h : Beside p q ns n m dots) {k : String} (hp : w.Admits p d k) :
    dots = [] ∧ k = n ∧ follow w.tree (w.start p) ns = .ok d := by
  obtain ⟨ns', hs, hf, -⟩ := member_eq_ok.mp hp.member
  have hsteps := h.file.symm.trans hs
  obtain rfl | ⟨ds, e, rfl⟩ := List.eq_nil_or_concat dots
  · obtain ⟨rfl, rfl⟩ := List.append_singleton_inj.mp hsteps
    exact ⟨rfl, rfl, hf⟩
  · rw [List.concat_eq_append, ← List.cons_append, ← List.append_assoc] at hsteps
    obtain ⟨-, rfl⟩ := List.append_singleton_inj.mp hsteps
    exact absurd (h.dots e (by simp)) (isDots_eq_false.mp hp.name).1

theorem Beside.found_eq (h : Beside p q ns n m dots) {k : String} (hq : w.Admits q d k)
    (ht : w.tree.Changes u (d ++ [k]) (some b)) : { w with tree := u }.found p = w.found p := by
  obtain ⟨rfl, hf⟩ := h.other_of_admits hq
  have hs := ht.sameDirs hq.free
  have hf' : follow u (w.start p) ns = .ok d := follow_of_sameDirs hs hf hq.dir
  have hne : d ++ [n] ≠ d ++ [k] := fun he => h.ne (List.append_singleton_inj.mp he).2.symm
  rw [found_of_steps h.file h.name h.dots hf hq.dir,
    found_of_steps (w := { w with tree := u }) h.file h.name h.dots hf' ((hs d).mp hq.dir),
    ht.of_ne hne]

end Workspace

theorem Change.run_bind {α β : Type} (x : Change α) (g : α → Change β) (w : Workspace) :
    (x >>= g).run w = match x.run w with
      | (.ok a, v) => (g a).run v
      | (.error e, v) => (.error e, v) := by
  have h : (x >>= g).run w = (ExceptT.bindCont g (x.run w).1).run (x.run w).2 := rfl
  rw [h]
  obtain ⟨r, v⟩ := x.run w
  cases r <;> rfl

theorem Change.run_step (p : Path) (g : Workspace → Except PathError Workspace) (w : Workspace) :
    (Change.step p g).run w = match g w with
      | .ok v => (.ok (), v)
      | .error e => (.error (.file p (.refused e)), w) := by
  change (match g w with
    | .ok v => set v
    | .error e => throw (.file p (.refused e)) : Change Unit).run w = _
  cases g w <;> rfl

namespace Catalog

/-- How the file `b` may get to the path `p` by way of the path `q`. -/
inductive Saving (p q : Path) (b : Bytes) (w : Workspace) : Except Fault Unit → Workspace → Prop
  | refused (e : Fault) (hq : ∀ d m, ¬w.Admits q d m) : Saving p q b w (.error e) w
  | abandoned (e : Fault) {d : List String} {m : String} {t : FileTree} (hq : w.Admits q d m)
      (hp : ∀ d n, ¬w.Admits p d n) (ht : w.tree.Changes t (d ++ [m]) (some b)) :
      Saving p q b w (.error e) { w with tree := t }
  | done {d d' : List String} {m n : String} {t u : FileTree} (hq : w.Admits q d m)
      (hp : w.Admits p d' n) (ht : w.tree.Changes t (d ++ [m]) none)
      (hu : t.Changes u (d' ++ [n]) (some b)) : Saving p q b w (.ok ()) { w with tree := u }

variable (c : Catalog) (f : Format) (p : Path) (w : Workspace)

theorem run_save :
    (c.save f p).run w =
      match w.write (draftOf p) (Bytes.encode (c.write f)) with
      | .ok v => match v.rename (draftOf p) p with
        | .ok u => (.ok (), u)
        | .error e => (.error (.file p (.refused e)), v)
      | .error e => (.error (.file (draftOf p) (.refused e)), w) := by
  rw [save, Change.run_bind, Change.run_step]
  cases w.write (draftOf p) (Bytes.encode (c.write f)) with
  | error e => rfl
  | ok v =>
    dsimp only
    rw [Change.run_step]

/-- A step of saving fails only where no file may be. No step moves a directory, so this is the same
before and after each of them. -/
theorem saving_save :
    Saving p (draftOf p) (Bytes.encode (c.write f)) w ((c.save f p).run w).1
      ((c.save f p).run w).2 := by
  rw [run_save]
  cases hw : w.write (draftOf p) (Bytes.encode (c.write f)) with
  | error e =>
    refine .refused _ fun d m hq => ?_
    rw [write_eq_ok.mpr ⟨d, m, hq, rfl⟩] at hw
    cases hw
  | ok v =>
    obtain ⟨d, m, hq, rfl⟩ := write_eq_ok.mp hw
    have ht := changes_put hq.dir hq.free (Bytes.encode (c.write f))
    have hs := ht.sameDirs hq.free
    have hm := member_of_sameDirs hs hq.member
    dsimp only
    cases hr : rename _ (draftOf p) p with
    | error e =>
      refine .abandoned _ hq (fun d' n hp => ?_) ht
      rw [rename_eq_ok.mpr ⟨d, m, d', n, _, hm, ht.self, hp.of_sameDirs hs, rfl⟩] at hr
      cases hr
    | ok u =>
      obtain ⟨d₁, m₁, d', n, b, hm', hb, hp, rfl⟩ := rename_eq_ok.mp hr
      obtain ⟨rfl, rfl⟩ := Prod.mk.inj (Except.ok.inj (hm.symm.trans hm'))
      obtain rfl := Option.some.inj (Option.some.inj (ht.self.symm.trans hb))
      have hf : (w.tree.put (d ++ [m]) (.file _)).contentAt? (d ++ [m]) ≠ some none :=
        (hs _).not.mp hq.free
      -- the draft is gone before the file is put in its place
      have he := changes_erase ((hs d).mp hq.dir) hf
      have hs' := he.sameDirs hf
      exact .done hq (hp.of_sameDirs hs.symm) (ht.trans he)
        (changes_put ((hs' d').mp hp.dir) ((hs' _).not.mp hp.free) _)

variable {p w} {q : Path} {b : Bytes} {v : Workspace} {r : Except Fault Unit}
  {ns dots : List String} {n m : String}

theorem Saving.found_of_ne (h : Saving p q b w r v) (hr : r ≠ .ok ())
    (hb : Beside p q ns n m dots) : v.found p = w.found p := by
  cases h with
  | refused => rfl
  | abandoned _ hq _ ht => exact hb.found_eq hq ht
  | done => exact absurd rfl hr

theorem Saving.of_ok (h : Saving p q b w r v) (hr : r = .ok ()) (hb : Beside p q ns n m dots) :
    v.read p = .ok b ∧ v.found q = .error .notFound := by
  subst hr
  cases h with
  | @done d d' m' n' t u hq hp ht hu =>
    obtain ⟨rfl, hf⟩ := hb.other_of_admits hq
    obtain ⟨rfl, rfl, hf'⟩ := hb.file_of_admits hp
    obtain rfl := Except.ok.inj (hf.symm.trans hf')
    have hs := (ht.sameDirs hq.free).trans (hu.sameDirs ((ht.sameDirs hq.free _).not.mp hp.free))
    have hd := (hs d).mp hq.dir
    have hfu : follow u (w.start p) ns = .ok d := follow_of_sameDirs hs hf hq.dir
    have hne : d ++ [m'] ≠ d ++ [n'] := fun he => hb.ne (List.append_singleton_inj.mp he).2
    constructor
    · rw [read_eq, found_of_steps (w := { w with tree := u }) hb.file hb.name hb.dots hfu hd,
        hu.self]
      dsimp only [Option.map_some]
      rw [if_pos ⟨rfl, hp.file⟩]
      rfl
    · rw [← hb.start] at hfu
      rw [found_of_steps (w := { w with tree := u }) hb.other hq.name (List.forall_mem_nil _) hfu
        hd, hu.of_ne hne, ht.self]
      rfl

theorem Saving.elsewhere (h : Saving p q b w r v) :
    v.cwd = w.cwd ∧ ∀ place, w.place? p ≠ some place → w.place? q ≠ some place →
      v.tree.contentAt? place = w.tree.contentAt? place := by
  cases h with
  | refused => exact ⟨rfl, fun _ _ _ => rfl⟩
  | abandoned _ hq _ ht =>
    refine ⟨rfl, fun place _ hne => ht.of_ne ?_⟩
    rintro rfl
    exact hne hq.place?
  | done hq hp ht hu =>
    refine ⟨rfl, fun place hne hne' => (hu.of_ne ?_).trans (ht.of_ne ?_)⟩
    · rintro rfl
      exact hne hp.place?
    · rintro rfl
      exact hne' hq.place?

theorem Saving.eq_ok_iff (h : Saving p q b w r v) :
    r = .ok () ↔ (∃ d n, w.Admits p d n) ∧ ∃ d m, w.Admits q d m := by
  cases h with
  | refused _ hq => exact iff_of_false nofun fun ⟨_, d, m, h⟩ => hq d m h
  | abandoned _ _ hp => exact iff_of_false nofun fun ⟨⟨d, n, h⟩, _⟩ => hp d n h
  | done hq hp => exact iff_of_true rfl ⟨⟨_, _, hp⟩, _, _, hq⟩

theorem beside_draftOf (h : p.fileName?.isSome) :
    ∃ ns n m dots, Beside p (draftOf p) ns n m dots := by
  obtain ⟨n, hn⟩ := Option.isSome_iff_exists.mp h
  obtain ⟨ns, m, dots, hb⟩ := beside_withExtension hn (e := "yaml.tmp") (by decide) (by decide)
  exact ⟨ns, n, m, dots, hb⟩

end Catalog

end EndpointCatalog
