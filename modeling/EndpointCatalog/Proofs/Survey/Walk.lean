import EndpointCatalog.Proofs.FileTree.Below
import EndpointCatalog.Proofs.Survey.Order

namespace EndpointCatalog.Survey

open EndpointCatalog.Path (IsName)

variable {v : Survey} {w u : Workspace} {root p : Path} {place : List String}
  {es : List (String × FileTree)}

/-- Whether a path leads from `root` to a file by names that are not hidden. -/
def IsVisible (w : Workspace) (root p : Path) : Prop :=
  ∃ names ≠ [], (∀ n ∈ names, IsName n ∧ isHidden n = false) ∧ p = below root names ∧
    w.isFile p = true

theorem isVisible_iff (hw : w.tree.IsProper) (hr : w.resolve root = .ok (place, .dir es)) :
    IsVisible w root p ↔ p ∈ ((FileTree.dir es).files isHidden).map (below root) := by
  have ht := (FileTree.isProper_of_get? hw (Workspace.get?_of_resolve hr).2).1
  rw [List.mem_map]
  constructor
  · rintro ⟨names, hne, hn, rfl, hf⟩
    have hb := (Workspace.isFile_below hr (fun n hm => (hn n hm).1) hne).mp hf
    exact ⟨names, (FileTree.mem_files ht).mpr ⟨hb, fun n hm => (hn n hm).2⟩, rfl⟩
  · rintro ⟨names, hm, rfl⟩
    obtain ⟨⟨b, hb⟩, hh⟩ := (FileTree.mem_files ht).mp hm
    have hn := (FileTree.isProper_of_get? ht hb).2
    have hne : names ≠ [] := by
      rintro rfl
      cases hb
    exact ⟨names, hne, fun n hm => ⟨hn n hm, hh n hm⟩, rfl,
      (Workspace.isFile_below hr hn hne).mpr ⟨b, hb⟩⟩

theorem pairwise_controllerFiles (hw : w.tree.IsProper) {paths : List Path}
    (h : v.controllerFiles w root = .ok paths) : paths.Pairwise fun p q => p.compare q = .lt := by
  have ha := apart_controllerFiles hw h
  rw [controllerFiles_eq] at h
  split at h
  · obtain rfl := Except.ok.inj h
    refine (Path.pairwise_sortBy id _).imp₂ (fun p q hle hne => ?_) ha
    cases hc : p.compare q with
    | lt => rfl
    | eq => exact absurd hc hne
    | gt =>
      rw [id, id, hc] at hle
      cases hle
  · cases h

theorem isDir_iff : w.isDir root = true ↔ ∃ place es, w.resolve root = .ok (place, .dir es) := by
  rw [Workspace.isDir]
  split
  · rename_i place es h
    exact iff_of_true rfl ⟨place, es, h⟩
  · rename_i h
    refine iff_of_false Bool.false_ne_true ?_
    rintro ⟨place, es, he⟩
    exact h place es he

theorem controllerFiles_of_not_isDir (v : Survey) (h : w.isDir root = false) :
    v.controllerFiles w root = .error (.file root .noSourceDirectory) := by
  rw [controllerFiles_eq]
  split
  · rename_i place es hr
    rw [isDir_iff.mpr ⟨place, es, hr⟩] at h
    cases h
  · rfl

theorem exists_controllerFiles (v : Survey) (hw : w.tree.IsProper) (h : w.isDir root = true) :
    ∃ paths, v.controllerFiles w root = .ok paths ∧
      ∀ p, p ∈ paths ↔ IsVisible w root p ∧ v.scan.accepts p = true := by
  obtain ⟨place, es, hr⟩ := isDir_iff.mp h
  refine ⟨_, by rw [controllerFiles_eq, hr], fun p => ?_⟩
  rw [(Path.sortBy_perm _ _).mem_iff, List.mem_filter, isVisible_iff hw hr]

/-- A walk fails if it does not start at a directory, and else gives the visible files that are
accepted, in the order of their paths. Trees that do not differ in these give the same. -/
theorem controllerFiles_walk (v : Survey) (w : Workspace) (hw : w.tree.IsProper) (root : Path) :
    (w.isDir root = false → v.controllerFiles w root = .error (.file root .noSourceDirectory)) ∧
    (w.isDir root = true → ∃ paths, v.controllerFiles w root = .ok paths ∧
      (paths.Pairwise fun p q => p.compare q = .lt) ∧
      ∀ p, p ∈ paths ↔ IsVisible w root p ∧ v.scan.accepts p = true) ∧
    (∀ u : Workspace, u.tree.IsProper → u.isDir root = w.isDir root →
      (∀ p, v.scan.accepts p = true → (IsVisible u root p ↔ IsVisible w root p)) →
      v.controllerFiles u root = v.controllerFiles w root) := by
  refine ⟨controllerFiles_of_not_isDir v, fun hd => ?_, fun u hu hd hs => ?_⟩
  · obtain ⟨paths, ho, hm⟩ := exists_controllerFiles v hw hd
    exact ⟨paths, ho, pairwise_controllerFiles hw ho, hm⟩
  · cases hr : w.isDir root with
    | false => rw [controllerFiles_of_not_isDir v hr, controllerFiles_of_not_isDir v (hd.trans hr)]
    | true =>
      obtain ⟨ps, hp, hmp⟩ := exists_controllerFiles v hw hr
      obtain ⟨qs, hq, hmq⟩ := exists_controllerFiles v hu (hd.trans hr)
      have he : qs = ps := by
        refine Path.eq_of_pairwise_lt (pairwise_controllerFiles hu hq)
          (pairwise_controllerFiles hw hp) fun p => ?_
        rw [hmq, hmp]
        exact and_congr_left (hs p)
      rw [hp, hq, he]

/-- A walk that starts at a hidden directory, in which there are a hidden directory, an ignore file
and a directory with the name of a controller. -/
theorem controllerFiles_walk_hidden :
    let v := ofSettings { scan := { controllersRoot := "/" } }
    let c := FileTree.file []
    let root : Path := ⟨"/.s"⟩
    let w : Workspace := { tree := .dir [(".s", .dir
      [("BController.php", c), (".gitignore", .file (Text.Bytes.encode "*")),
        (".h", .dir [("AController.php", c)]),
        ("XController.php", .dir [("a.php", c), ("AController.php", c)])])] }
    let u : Workspace := { tree := .dir [(".s", .dir
      [("XController.php", .dir [("AController.php", c), ("a.php", c)]), ("BController.php", c)])] }
    (∃ paths, v.controllerFiles w root = .ok paths ∧
      (paths.Pairwise fun p q => p.compare q = .lt) ∧
      ⟨"/.s/XController.php/AController.php"⟩ ∈ paths) ∧
    v.controllerFiles u root = v.controllerFiles w root := by
  intro v c root w u
  have hc : c.IsProper := .file []
  have hw : w.tree.IsProper := by
    refine .dir (by decide) (by decide +kernel) (List.forall_mem_singleton.mpr ?_)
    refine .dir (by decide) (by decide +kernel) ?_
    simp only [List.forall_mem_cons]
    refine ⟨hc, .file _, ?_, ?_, List.forall_mem_nil _⟩
    · exact .dir (by decide) (by decide +kernel) (List.forall_mem_singleton.mpr hc)
    · refine .dir (by decide) (by decide +kernel) ?_
      exact List.forall_mem_cons.mpr ⟨hc, List.forall_mem_singleton.mpr hc⟩
  have hu : u.tree.IsProper := by
    refine .dir (by decide) (by decide +kernel) (List.forall_mem_singleton.mpr ?_)
    refine .dir (by decide) (by decide +kernel) (List.forall_mem_cons.mpr ⟨?_, ?_⟩)
    · refine .dir (by decide) (by decide +kernel) ?_
      exact List.forall_mem_cons.mpr ⟨hc, List.forall_mem_singleton.mpr hc⟩
    · exact List.forall_mem_singleton.mpr hc
  have hrw : w.resolve root = .ok ([".s"], .dir _) :=
    Workspace.resolve_eq_ok.mpr ⟨by decide, by decide +kernel, rfl, nofun⟩
  have hru : u.resolve root = .ok ([".s"], .dir _) :=
    Workspace.resolve_eq_ok.mpr ⟨by decide, by decide +kernel, rfl, nofun⟩
  have hdw : w.isDir root = true := isDir_iff.mpr ⟨_, _, hrw⟩
  have hdu : u.isDir root = true := isDir_iff.mpr ⟨_, _, hru⟩
  obtain ⟨-, h, h'⟩ := controllerFiles_walk v w hw root
  refine ⟨?_, h' u hu (hdu.trans hdw.symm) fun p _ => ?_⟩
  · obtain ⟨paths, ho, hp, hm⟩ := h hdw
    refine ⟨paths, ho, hp, (hm _).mpr ⟨?_, by decide +kernel⟩⟩
    rw [isVisible_iff hw hrw]
    decide +kernel
  · rw [isVisible_iff hw hrw, isVisible_iff hu hru]
    refine List.Perm.mem_iff ?_
    decide +kernel

end EndpointCatalog.Survey
