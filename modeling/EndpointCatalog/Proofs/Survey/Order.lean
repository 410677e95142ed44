import EndpointCatalog.Catalog.Document
import EndpointCatalog.Proofs.FileTree.Files
import EndpointCatalog.Proofs.Path.Order
import EndpointCatalog.Proofs.Survey.Shared

namespace EndpointCatalog

namespace Catalog

theorem ofFiles_eq_of_perm (r : Repository) {fs gs : List FileEndpoints}
    (h : Path.Apart (·.path) fs) (hp : fs.Perm gs) : ofFiles r fs = ofFiles r gs := by
  have hs : FileEndpoints.sort fs = FileEndpoints.sort gs := h.sortBy_eq hp
  rw [ofFiles, ofFiles, hs]

end Catalog

namespace Survey

variable {v : Survey} {w u : Workspace} {root : Path}

theorem apart_files {isFile : Path → Bool} {sources : List (Path × List Char)}
    (h : Path.Apart (·.1) sources) : Path.Apart (·.path) (v.files isFile sources) :=
  List.pairwise_map.mpr h

theorem controllerFiles_eq (v : Survey) (w : Workspace) (root : Path) :
    v.controllerFiles w root = match w.resolve root with
      | .ok (_, .dir es) => .ok (Path.sortBy id
          ((((FileTree.dir es).files isHidden).map (below root)).filter v.scan.accepts))
      | _ => .error (.file root .noSourceDirectory) := rfl

theorem apart_below {t : FileTree} (ht : t.IsProper) (hr : root.text ≠ "")
    (skip : String → Bool) : Path.Apart id ((t.files skip).map (below root)) := by
  refine List.pairwise_map.mpr ((FileTree.nodup_files ht).imp_of_mem fun {ms ns} hm hn hne => ?_)
  obtain ⟨⟨b, hb⟩, -⟩ := (FileTree.mem_files ht).mp hm
  obtain ⟨⟨c, hc⟩, -⟩ := (FileTree.mem_files ht).mp hn
  intro he
  have hcomp := Path.compare_eq_iff.mp he
  rw [id, id, Path.components_below hr (FileTree.isProper_of_get? ht hb).2,
    Path.components_below hr (FileTree.isProper_of_get? ht hc).2,
    List.append_cancel_left_eq] at hcomp
  exact hne ((List.map_inj_right fun _ _ => Path.Component.name.inj).mp hcomp)

theorem apart_controllerFiles (hw : w.tree.IsProper) {paths : List Path}
    (h : v.controllerFiles w root = .ok paths) : Path.Apart id paths := by
  rw [controllerFiles_eq] at h
  split at h
  · rename_i place es hr
    obtain rfl := Except.ok.inj h
    obtain ⟨ht, hg⟩ := Workspace.get?_of_resolve hr
    have ha := (apart_below (FileTree.isProper_of_get? hw hg).1 ht isHidden).filter v.scan.accepts
    exact Path.Apart.of_perm ha (Path.sortBy_perm _ _).symm
  · cases h

theorem sortBy_files_congr {s t : FileTree} (hs : s.IsProper) (ht : t.IsProper) (h : s.Same t)
    (hr : root.text ≠ "") (skip : String → Bool) (accepts : Path → Bool) :
    Path.sortBy id (((s.files skip).map (below root)).filter accepts) =
      Path.sortBy id (((t.files skip).map (below root)).filter accepts) := by
  have hp := ((FileTree.files_perm skip hs ht h).map (below root)).filter accepts
  exact Path.Apart.sortBy_eq ((apart_below hs hr skip).filter accepts) hp

theorem controllerFiles_congr (v : Survey) (h : w.Same u) (hw : w.tree.IsProper)
    (hu : u.tree.IsProper) (root : Path) : v.controllerFiles w root = v.controllerFiles u root := by
  rw [controllerFiles_eq, controllerFiles_eq]
  obtain ⟨e, hx, hy⟩ | ⟨place, s, t, hx, hy, hb, hsame⟩ := h.resolve root
  · rw [hx, hy]
  · rw [hx, hy]
    obtain ⟨hr, hs⟩ := Workspace.get?_of_resolve hx
    have hs := (FileTree.isProper_of_get? hw hs).1
    have ht := (FileTree.isProper_of_get? hu (Workspace.get?_of_resolve hy).2).1
    cases s with
    | file b =>
      cases t with
      | file b' => rfl
      | dir es => cases hb
    | dir es =>
      cases t with
      | file b => cases hb
      | dir es' => exact congrArg Except.ok (sortBy_files_congr hs ht hsame hr _ _)

theorem analyzeFile_congr (v : Survey) (h : w.Same u) (p : Path) :
    v.analyzeFile w p = v.analyzeFile u p := by
  have hi : w.isFile = u.isFile := funext h.isFile
  rw [analyzeFile, analyzeFile, h.read, hi]

theorem collect_congr (v : Survey) (h : w.Same u) (hw : w.tree.IsProper) (hu : u.tree.IsProper)
    (root : Path) (r : Repository) : v.collect w root r = v.collect u root r := by
  simp only [collect, controllerFiles_congr v h hw hu, analyzeFile_congr v h]

theorem mapM_eq_ok {α β : Type} {f : α → Except Fault β} {g : α → β} {xs : List α}
    (h : ∀ x ∈ xs, f x = .ok (g x)) : xs.mapM f = .ok (xs.map g) := by
  induction xs with
  | nil => rfl
  | cons x xs ih =>
    obtain ⟨hx, hxs⟩ := List.forall_mem_cons.mp h
    rw [List.mapM_cons, hx, ih hxs]
    rfl

/-- The catalog of a survey can be put together from the results for the single files, in whatever
order they come. -/
theorem collect_eq_ok {paths : List Path} {fs : List FileEndpoints} (r : Repository)
    (hw : w.tree.IsProper) (hp : v.controllerFiles w root = .ok paths)
    (hfs : (fs.map (·.path)).Perm paths)
    (ha : ∀ f ∈ fs, v.analyzeFile w f.path = .ok f.endpoints) :
    v.collect w root r = .ok (.ofFiles r fs) := by
  let result (p : Path) : FileEndpoints := ⟨p, (v.analyzeFile w p).toOption.getD []⟩
  have hr : ∀ f ∈ fs, result f.path = f := fun f hf => by
    have hg : (v.analyzeFile w f.path).toOption.getD [] = f.endpoints := by
      rw [ha f hf]
      rfl
    exact congrArg (FileEndpoints.mk f.path) hg
  let analyze (p : Path) : Except Fault FileEndpoints :=
    return { path := p, endpoints := ← v.analyzeFile w p }
  have hm : paths.mapM analyze = .ok (paths.map result) := by
    refine mapM_eq_ok fun p hmem => ?_
    obtain ⟨f, hf, rfl⟩ := List.mem_map.mp (hfs.mem_iff.mpr hmem)
    have hb : analyze f.path = (v.analyzeFile w f.path).bind fun es => .ok ⟨f.path, es⟩ := rfl
    rw [hr f hf, hb, ha f hf]
    rfl
  have hperm : (paths.map result).Perm fs := by
    have he : (fs.map (·.path)).map result = fs := by
      rw [List.map_map]
      exact (List.map_congr_left hr).trans (List.map_id fs)
    have hp := (hfs.map result).symm
    rwa [he] at hp
  -- so the order of the files is settled by their paths
  have hapart : Path.Apart (·.path) (paths.map result) :=
    List.pairwise_map.mpr (apart_controllerFiles hw hp)
  have hc : v.collect w root r =
    (v.controllerFiles w root).bind fun ps =>
      (ps.mapM analyze).bind fun gs => .ok (.ofFiles r gs) := rfl
  rw [hc, hp, Except.bind, hm, Except.bind, Catalog.ofFiles_eq_of_perm r hapart hperm]

/-- What is collected, and so what is written of it, depends neither on the order of the files nor
on that of a directory's entries nor on that of the results for the single files. -/
theorem catalog_eq_of_perm (s : Settings) (r : Repository) :
    let v := ofSettings s
    (∀ isFile sources sources', sources.Perm sources' → Path.Apart (·.1) sources →
      let c := Catalog.ofFiles r (v.files isFile sources)
      let c' := Catalog.ofFiles r (v.files isFile sources')
      c = c' ∧ ∀ format, c.write format = c'.write format) ∧
    (∀ w w' root, w.Same w' → w.tree.IsProper → w'.tree.IsProper →
      v.collect w root r = v.collect w' root r) ∧
    (∀ w root paths fs, w.tree.IsProper → v.controllerFiles w root = .ok paths →
      (fs.map (·.path)).Perm paths → (∀ f ∈ fs, v.analyzeFile w f.path = .ok f.endpoints) →
      v.collect w root r = .ok (.ofFiles r fs)) := by
  intro v
  refine ⟨fun isFile sources sources' hp ha => ?_, ?_, ?_⟩
  · have hf : Path.Apart (·.path) (v.files isFile sources) := apart_files ha
    have hc := Catalog.ofFiles_eq_of_perm r hf (hp.map _)
    exact ⟨hc, fun format => congrArg (·.write format) hc⟩
  · exact fun w w' root h hw hw' => collect_congr v h hw hw' root r
  · exact fun w root paths fs hw hp hfs ha => collect_eq_ok r hw hp hfs ha

/-- Two controllers that are listed, read and analyzed in the wrong order. -/
theorem catalog_eq_of_swap :
    let v := ofSettings { scan := { controllersRoot := "/" } }
    let text := "<?php\nclass AController extends ApiMutableModelControllerBase \x7b\n" ++
      " public function addAction($id) \x7b\x7d\n\x7d"
    let p : Path := ⟨"/a//./AController.php"⟩
    let q : Path := ⟨"/a/BController.php"⟩
    let a := ("a", FileTree.dir [("AController.php", .file (Text.Bytes.encode text))])
    let b := ("b", FileTree.dir [("BController.php", .file (0xFF :: Text.Bytes.encode text))])
    let w : Workspace := { tree := .dir [b, a] }
    let w' : Workspace := { tree := .dir [a, b] }
    let result (p : Path) (bs : Text.Bytes) : FileEndpoints :=
      ⟨p, v.analyze w.isFile p (Text.Bytes.decodeLossy bs).toList⟩
    let fs := [result ⟨"/b/BController.php"⟩ (0xFF :: Text.Bytes.encode text),
      result ⟨"/a/AController.php"⟩ (Text.Bytes.encode text)]
    Catalog.ofFiles .core (v.files w.isFile [(q, text.toList), (p, text.toList)]) =
      Catalog.ofFiles .core (v.files w.isFile [(p, text.toList), (q, text.toList)]) ∧
    v.collect w ⟨"/"⟩ .core = v.collect w' ⟨"/"⟩ .core ∧
    v.collect w ⟨"/"⟩ .core = .ok (.ofFiles .core fs) := by
  intro v text p q a b w w' result fs
  have h := catalog_eq_of_perm { scan := { controllersRoot := "/" } } .core
  have hfile : ∀ (n : String) (bs : Text.Bytes), Path.IsName n →
      (FileTree.dir [(n, .file bs)]).IsProper := fun n bs hn =>
    .dir (List.nodup_singleton n) (List.forall_mem_singleton.mpr hn)
      (List.forall_mem_singleton.mpr (.file bs))
  have ha : a.2.IsProper := hfile _ _ (by decide +kernel)
  have hb : b.2.IsProper := hfile _ _ (by decide +kernel)
  have hw : w.tree.IsProper := .dir (by decide) (by decide +kernel)
    (List.forall_mem_cons.mpr ⟨hb, List.forall_mem_singleton.mpr ha⟩)
  have hw' : w'.tree.IsProper := .dir (by decide) (by decide +kernel)
    (List.forall_mem_cons.mpr ⟨ha, List.forall_mem_singleton.mpr hb⟩)
  have hs : w.Same w' := ⟨FileTree.same_of_perm (.swap _ _ _) (by decide), rfl⟩
  have hf : v.controllerFiles w ⟨"/"⟩ = .ok [⟨"/a/AController.php"⟩, ⟨"/b/BController.php"⟩] := by
    have hr : w.resolve ⟨"/"⟩ = .ok ([], w.tree) := rfl
    have hl : ((w.tree.files isHidden).map (below ⟨"/"⟩)).filter v.scan.accepts =
      [⟨"/b/BController.php"⟩, ⟨"/a/AController.php"⟩] := by decide +kernel
    have hd : Path.Apart id [⟨"/b/BController.php"⟩, ⟨"/a/AController.php"⟩] := by
      rw [Path.Apart]
      decide +kernel
    rw [controllerFiles_eq, hr]
    show Except.ok (Path.sortBy id (((w.tree.files isHidden).map (below ⟨"/"⟩)).filter
      v.scan.accepts)) = _
    rw [hl, hd.sortBy_eq_of_pairwise (.swap _ _ _) (by decide +kernel)]
  have hpq : Path.Apart (·.1) [(q, text.toList), (p, text.toList)] :=
    List.pairwise_cons.mpr
      ⟨List.forall_mem_singleton.mpr (by decide +kernel), List.pairwise_singleton _ _⟩
  refine ⟨(h.1 w.isFile _ _ (.swap _ _ _) hpq).1, h.2.1 w w' _ hs hw hw', ?_⟩
  refine h.2.2 w _ _ fs hw hf (.swap _ _ _) (List.forall_mem_cons.mpr ⟨?_, ?_⟩)
  · have hr : w.read ⟨"/b/BController.php"⟩ = .ok (0xFF :: Text.Bytes.encode text) := by
      decide +kernel
    show v.analyzeFile w ⟨"/b/BController.php"⟩ = _
    rw [analyzeFile, hr]
  · have hr : w.read ⟨"/a/AController.php"⟩ = .ok (Text.Bytes.encode text) := by decide +kernel
    refine List.forall_mem_singleton.mpr ?_
    show v.analyzeFile w ⟨"/a/AController.php"⟩ = _
    rw [analyzeFile, hr]

end Survey

end EndpointCatalog
