import EndpointCatalog.Controller.Facts
import EndpointCatalog.Proofs.Controller.ClassHeader
import EndpointCatalog.Proofs.Path.Parent
import EndpointCatalog.Proofs.Pattern.Captures

namespace EndpointCatalog

open Text Text.Blank Text.Search
open EndpointCatalog.Path (IsName)

namespace Dialect.Usual

open Pattern

theorem subgroups_classField (name : String) :
    (classField name).subgroups = [(1, className)] := by
  rw [classField, subgroups_concat]
  simp only [List.flatMap_cons, subgroups_literal]
  rfl

end Dialect.Usual

namespace Facts

def IsClassChar (c : Char) : Prop := Word.isWord c = true ∨ c = '|' ∨ c = '\\'

theorem IsClassChar.ne {c d : Char} (h : IsClassChar c) (hw : Word.isWord d = false)
    (hd : d ≠ '|' ∧ d ≠ '\\') : c ≠ d := by
  obtain h | rfl | rfl := h
  · exact Word.ne_of_isWord h hw
  · exact hd.1.symm
  · exact hd.2.symm

variable {d : Dialect} {isFile : Path → Bool} {p m : Path} {source w : List Char}

theorem isClassChar_of_modelClass?
    (hd : ∀ q ∈ d.modelFields, ∃ name, q = Dialect.Usual.classField name)
    (h : modelClass? d source = some w) : ∀ c ∈ w, IsClassChar c := by
  rw [modelClass?] at h
  split at h
  · cases h
  · rename_i t ht
    obtain ⟨q, hq, hf⟩ := List.exists_of_findSome?_eq_some ht
    obtain ⟨name, rfl⟩ := hd q hq
    have hr := (Pattern.mem_runs_of_findFrom? hf).1
    obtain ⟨r, hm, a, s, hs, rfl⟩ := Pattern.exists_of_group? hr (Option.filter_eq_some_iff.mp h).1
    rw [Dialect.Usual.subgroups_classField, List.mem_singleton] at hm
    obtain rfl := (Prod.mk.inj hm).2
    intro c hc
    apply (Dialect.Usual.className_contains c).mp
    exact Pattern.contains_of_mem_runs_star_one _ _ hs c hc

theorem segments_modelPath (w : List Char) :
    ∃ front s, (modelPath w).segments = front ++ [s ++ ".xml".toList] ∧
      (replace '\\' '/' (w.dropWhile (· = '\\'))).splitOn '/' = front ++ [s] := by
  have hx : '/' ∉ ".xml".toList := by decide
  rw [Path.segments, modelPath, String.toList_append, String.toList_ofList]
  generalize replace '\\' '/' (w.dropWhile (· = '\\')) = x
  by_cases hs : '/' ∈ x
  · obtain ⟨hc, hb⟩ := cut_at_last hs
    have hbx : '/' ∉ behindLast '/' x ++ ".xml".toList := by
      rw [List.mem_append, not_or]
      exact ⟨hb, hx⟩
    refine ⟨(beforeLast '/' x).splitOn '/', behindLast '/' x, ?_, ?_⟩
    · conv_lhs => rw [hc, List.append_assoc, List.cons_append]
      rw [List.splitOn_append_cons_self, List.splitOn_eq_singleton hbx]
    · conv_lhs => rw [hc]
      rw [List.splitOn_append_cons_self, List.splitOn_eq_singleton hb]
  · refine ⟨[], x, ?_, List.splitOn_eq_singleton hs⟩
    apply List.splitOn_eq_singleton
    rw [List.mem_append, not_or]
    exact ⟨hs, hx⟩

theorem isAbsolute_modelPath (hw : ∀ c ∈ w, IsClassChar c) : (modelPath w).isAbsolute = false := by
  rw [Path.isAbsolute, modelPath, String.toList_append, String.toList_ofList, beq_eq_false_iff_ne]
  cases hx : w.dropWhile (· = '\\') with
  | nil => decide
  | cons c cs =>
    have hc : c ∈ w := (List.dropWhile_sublist _).subset (hx ▸ List.mem_cons_self)
    have hb : c ≠ '\\' := by
      rintro rfl
      have h := List.head?_dropWhile_not (· = '\\') w
      rw [hx] at h
      cases h
    have hs : c ≠ '/' := (hw c hc).ne (by decide +kernel) (by decide)
    rw [replace, List.map_cons, if_neg hb, List.cons_append, List.head?_cons]
    exact fun h => hs (Option.some.inj h)

theorem dot_notMem_piece (hw : ∀ c ∈ w, IsClassChar c) :
    ∀ f ∈ (replace '\\' '/' (w.dropWhile (· = '\\'))).splitOn '/', '.' ∉ f := by
  intro f hf hd
  obtain ⟨c, hc, he⟩ := List.mem_map.mp (mem_of_mem_splitOn hf hd)
  have hc : c ∈ w := (List.dropWhile_sublist _).subset hc
  split at he
  · cases he
  · exact (hw c hc).ne (by decide +kernel) (by decide) he

theorem isName_xml {s : List Char} (hs : '/' ∉ s) : IsName (String.ofList s ++ ".xml") := by
  have hl : (String.ofList s ++ ".xml").toList = s ++ ".xml".toList := by
    rw [String.toList_append, String.toList_ofList]
  have hne : ∀ t : String, t.toList.length < 4 → String.ofList s ++ ".xml" ≠ t := by
    rintro t ht rfl
    rw [hl, List.length_append] at ht
    exact absurd ht (by simp)
  refine ⟨hne _ (by decide), hne _ (by decide), hne _ (by decide), ?_⟩
  rw [hl, List.mem_append, not_or]
  exact ⟨hs, by decide⟩

theorem head?_segments_modelPath (hw : ∀ c ∈ w, IsClassChar c) :
    (modelPath w).segments.head? ≠ some ['.'] := by
  obtain ⟨front, s, hm, hc⟩ := segments_modelPath w
  have hdot := dot_notMem_piece hw
  rw [hc] at hdot
  rw [hm]
  intro h
  cases front with
  | nil =>
    have hl := congrArg List.length (Option.some.inj h)
    rw [List.length_append] at hl
    exact absurd hl (by simp)
  | cons f front =>
    obtain rfl := Option.some.inj h
    exact hdot _ List.mem_cons_self List.mem_cons_self

theorem exists_names_modelPath (hw : ∀ c ∈ w, IsClassChar c) :
    ∃ (names : List String) (last : String),
      (modelPath w).segments.filterMap Path.component? =
        (names ++ [last ++ ".xml"]).map .name ∧
      ∀ n ∈ names ++ [last ++ ".xml"], IsName n := by
  obtain ⟨front, s, hm, hc⟩ := segments_modelPath w
  have hdot := dot_notMem_piece hw
  have hsl : ∀ f ∈ front ++ [s], '/' ∉ f := fun f hf => notMem_of_mem_splitOn (hc ▸ hf)
  rw [hc] at hdot
  obtain ⟨hdf, -⟩ := List.forall_mem_append.mp hdot
  obtain ⟨hsf, hs⟩ := List.forall_mem_append.mp hsl
  have hup : ∀ f ∈ front, '/' ∉ f ∧ f ≠ ['.', '.'] := by
    intro f hf
    refine ⟨hsf f hf, ?_⟩
    rintro rfl
    exact hdf _ hf List.mem_cons_self
  obtain ⟨names, hns, hn⟩ := Path.exists_names hup
  have hlast : IsName (String.ofList s ++ ".xml") := isName_xml (hs s List.mem_cons_self)
  have hcl := Path.component?_name hlast
  rw [String.toList_append, String.toList_ofList] at hcl
  refine ⟨names, String.ofList s, ?_, ?_⟩
  · rw [hm, List.filterMap_append, hns, List.filterMap_cons_some hcl, List.map_append]
    rfl
  · exact List.forall_mem_append.mpr ⟨hn, List.forall_mem_singleton.mpr hlast⟩

theorem modelOf?_eq_some : modelOf? d isFile p source = some m ↔
    ∃ w app, modelClass? d source = some w ∧ p.ancestor? 5 = some app ∧
      m = (app.join ⟨d.conventions.modelsDir⟩).join (modelPath w) ∧ isFile m = true := by
  simp only [modelOf?, Option.bind_eq_bind, Option.bind_eq_some_iff, Option.ite_none_right_eq_some,
    Option.some.injEq]
  constructor
  · rintro ⟨w, hw, app, ha, hf, rfl⟩
    exact ⟨w, app, hw, ha, rfl, hf⟩
  · rintro ⟨w, app, hw, ha, rfl, hf⟩
    exact ⟨w, hw, app, ha, hf, rfl⟩

/-- Whether names lead from a directory down to a file with the extension of models. -/
def IsModelBelow (dir m : Path) : Prop :=
  ∃ (names : List String) (last : String),
    m.components = dir.components ++ (names ++ [last ++ ".xml"]).map .name ∧
      ∀ n ∈ names ++ [last ++ ".xml"], IsName n

theorem isModelBelow_join (hw : ∀ c ∈ w, IsClassChar c) (dir : Path) :
    IsModelBelow dir (dir.join (modelPath w)) := by
  obtain ⟨names, last, hm, hn⟩ := exists_names_modelPath hw
  refine ⟨names, last, ?_, hn⟩
  rw [Path.components_join_of_relative (isAbsolute_modelPath hw) (head?_segments_modelPath hw), hm]

theorem exists_app_of_modelFile?
    (hd : ∀ q ∈ d.modelFields, ∃ name, q = Dialect.Usual.classField name)
    (h : (ofSource d isFile p source).modelFile? = some m) :
    ∃ app tail, p.ancestor? 5 = some app ∧ p.components = app.components ++ tail ∧
      tail.length = 5 ∧ IsModelBelow (app.join ⟨d.conventions.modelsDir⟩) m ∧ isFile m = true := by
  obtain ⟨w, app, hw, ha, rfl, hf⟩ := modelOf?_eq_some.mp h
  obtain ⟨tail, ht, hl⟩ := Path.components_of_ancestor? ha
  refine ⟨app, tail, ha, ht, hl, ?_, hf⟩
  apply isModelBelow_join
  exact isClassChar_of_modelClass? hd hw

/-- The model of a controller is a file below the directory of the models, which belongs to the
fifth ancestor of the controller's path, and a path without such an ancestor has no model. -/
theorem modelFile?_below (d : Dialect)
    (hd : ∀ q ∈ d.modelFields, ∃ name, q = Dialect.Usual.classField name) (isFile : Path → Bool)
    (p : Path) (source : List Char) :
    (∀ m, (ofSource d isFile p source).modelFile? = some m →
      ∃ app tail, p.ancestor? 5 = some app ∧ p.components = app.components ++ tail ∧
        tail.length = 5 ∧ IsModelBelow (app.join ⟨d.conventions.modelsDir⟩) m ∧ isFile m = true) ∧
    (p.components.length < 5 → (ofSource d isFile p source).modelFile? = none) := by
  refine ⟨fun m => exists_app_of_modelFile? hd, fun hlt => ?_⟩
  rw [Option.eq_none_iff_forall_ne_some]
  intro m h
  obtain ⟨app, tail, -, ht, hl, -⟩ := exists_app_of_modelFile? hd h
  rw [ht, List.length_append, hl] at hlt
  omega

/-- A class with backslashes in a row and a bar. -/
theorem modelFile?_below_backslashes :
    let d : Dialect := .ofConventions {}
    let p : Path := ⟨"/usr/./mvc/controllers/OPNsense/Firewall/Api/AliasController.php"⟩
    let source :=
      "<?php\n protected static $internalModelClass = '\\\\OPNsense\\\\Alias|\\Alias';\n".toList
    let m : Path := ⟨"/usr/./mvc/models/OPNsense//Alias|/Alias.xml"⟩
    let isFile : Path → Bool := fun q => q == m
    (ofSource d isFile p source).modelFile? = some m ∧
      ∃ app tail, p.ancestor? 5 = some app ∧ p.components = app.components ++ tail ∧
        tail.length = 5 ∧ IsModelBelow (app.join ⟨"models"⟩) m ∧ isFile m = true := by
  intro d p source m isFile
  have hd : ∀ q ∈ d.modelFields, ∃ name, q = Dialect.Usual.classField name := by
    refine List.forall_mem_cons.mpr ⟨⟨_, rfl⟩, List.forall_mem_singleton.mpr ⟨_, rfl⟩⟩
  have h : (ofSource d isFile p source).modelFile? = some m := by decide +kernel
  exact ⟨h, (modelFile?_below d hd isFile p source).1 m h⟩

end Facts

end EndpointCatalog
