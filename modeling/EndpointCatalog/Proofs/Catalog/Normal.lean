import EndpointCatalog.Proofs.Catalog.Links
import EndpointCatalog.Proofs.Controller.ModelFile
import EndpointCatalog.Proofs.Path.Normal

namespace EndpointCatalog

open Text.Blank Text.Search

namespace Repository

variable {r : Repository} {p : Path} {i : Nat}

/-- What stands behind the scheme of an address, or all of what is no address. -/
def behindScheme (link : String) : List Char :=
  (after? "https://".toList link.toList).getD link.toList

/-- Whether no slash of an address follows another, but for those of its scheme. -/
def IsClean (link : String) : Prop := IsSpaced '/' (behindScheme link)

instance (link : String) : Decidable (IsClean link) := inferInstanceAs (Decidable (IsSpaced _ _))

/-- The segments of a path that are shown in its address, if `i` is the place of the first mark. -/
def shown (r : Repository) (p : Path) (i : Nat) : List (List Char) :=
  p.slashed.segments.drop (i - r.depth)

/-- Whether a path begins with the root and is shown from there on. -/
def ShowsRoot (r : Repository) (p : Path) : Prop :=
  p.isAbsolute = true ∧ ∃ i ≤ r.depth, p.slashed.segments.findIdx? (· == mark) = some i

theorem suffix_behindScheme (link : String) : behindScheme link <:+ link.toList := by
  rw [behindScheme]
  cases h : after? "https://".toList link.toList with
  | none => exact List.suffix_rfl
  | some cs => exact ⟨_, (after?_eq_some.mp h).symm⟩

theorem behindScheme_append (s t : String) :
    behindScheme ("https://" ++ s ++ t) = s.toList ++ t.toList := by
  have h : after? "https://".toList ("https://" ++ s ++ t).toList =
      some (s.toList ++ t.toList) := by
    rw [after?_eq_some, String.toList_append, String.toList_append, List.append_assoc]
  rw [behindScheme, h, Option.getD_some]

theorem exists_site (r : Repository) :
    ∃ s t : String, r.site = "https://" ++ s ∧ s.toList = t.toList ++ ['/'] ∧
      IsSpaced '/' s.toList := by
  cases r with
  | core =>
    exact ⟨"github.com/opnsense/core/blob/master/", "github.com/opnsense/core/blob/master",
      by decide +kernel, by decide +kernel, by decide +kernel⟩
  | plugins =>
    exact ⟨"github.com/opnsense/plugins/blob/master/", "github.com/opnsense/plugins/blob/master",
      by decide +kernel, by decide +kernel, by decide +kernel⟩

theorem isClean_site_append (r : Repository) (cs : List Char) :
    IsClean (r.site ++ String.ofList cs) ↔ IsSpaced '/' ('/' :: cs) := by
  obtain ⟨s, t, hs, ht, hn⟩ := r.exists_site
  rw [ht] at hn
  rw [IsClean, hs, behindScheme_append, ht, String.toList_ofList, List.append_assoc,
    List.singleton_append, isSpaced_append_cons, and_iff_right hn]

theorem isClean_sourceUrl_of_findIdx? (h : p.slashed.segments.findIdx? (· == mark) = some i) :
    IsClean (r.sourceUrl p) ↔ IsSpaced '/' ('/' :: ['/'].intercalate (r.shown p i)) := by
  rw [sourceUrl_of_findIdx? h, isClean_site_append, shown]

theorem lt_length_of_findIdx? (h : p.slashed.segments.findIdx? (· == mark) = some i) :
    i - r.depth < p.slashed.segments.length :=
  Nat.lt_of_le_of_lt (Nat.sub_le i _) (List.findIdx?_eq_some_iff_findIdx_eq.mp h).1

/-- An address is clean if none of the segments that it shows is empty but the last. -/
theorem isClean_sourceUrl_iff (h : p.slashed.segments.findIdx? (· == mark) = some i) :
    IsClean (r.sourceUrl p) ↔ [] ∉ (r.shown p i).dropLast := by
  have hn : r.shown p i ≠ [] := by
    rw [shown, ne_eq, List.drop_eq_nil_iff]
    exact Nat.not_le_of_lt (lt_length_of_findIdx? h)
  rw [isClean_sourceUrl_of_findIdx? h, isSpaced_cons_intercalate hn]
  exact fun w hw => notMem_of_mem_splitOn (List.mem_of_mem_drop hw)

theorem sourceUrl_of_findIdx?_eq_none (h : p.slashed.segments.findIdx? (· == mark) = none) :
    r.sourceUrl p = p.slashed.text := by
  rw [sourceUrl, Path.text_slashed]
  simp only [← Path.segments_slashed]
  rw [← mark, h]

theorem isClean_sourceUrl_of_isNormal (hb : '\\' ∉ p.text.toList) (hp : p.IsNormal) :
    IsClean (r.sourceUrl p) ↔ ¬ r.ShowsRoot p := by
  have hs := Path.slashed_of_notMem hb
  cases h : p.slashed.segments.findIdx? (· == mark) with
  | none =>
    refine iff_of_true ?_ fun hr => ?_
    · rw [sourceUrl_of_findIdx?_eq_none h, hs]
      exact IsSpaced.mono hp (suffix_behindScheme p.text).isInfix
    · obtain ⟨-, i, -, hi⟩ := hr
      rw [h] at hi
      cases hi
  | some i =>
    have hl := lt_length_of_findIdx? (r := r) h
    have hr : r.ShowsRoot p ↔ i - r.depth = 0 ∧ p.isAbsolute = true := by
      rw [ShowsRoot, h, Nat.sub_eq_zero_iff_le, and_comm]
      simp
    rw [hs] at hl
    rw [hr, isClean_sourceUrl_of_findIdx? h, shown, hs, Path.isSpaced_cons_join_drop hp hl]

end Repository

namespace Facts

open Repository (IsClean)

variable {d : Dialect} {isFile : Path → Bool} {p m : Path} {source w : List Char}

/-- The path of a model doubles a slash where its class doubles a backslash, but for those that it
begins with. -/
theorem isNormal_modelPath (hw : ∀ c ∈ w, IsClassChar c) :
    (modelPath w).IsNormal ↔ IsSpaced '\\' (w.dropWhile (· = '\\')) := by
  have hs : '/' ∉ w.dropWhile (· = '\\') := fun h =>
    (hw '/' ((List.dropWhile_sublist _).subset h)).ne (by decide +kernel) (by decide) rfl
  have hx : IsSpaced '/' ".xml".toList := isSpaced_of_notMem (by decide)
  have hh : ".xml".toList.head? ≠ some '/' := by decide
  rw [Path.IsNormal, modelPath, String.toList_append, String.toList_ofList, isSpaced_append,
    isSpaced_replace hs, and_iff_left ⟨hx, fun h => hh h.2⟩]

theorem backslash_notMem_modelPath (w : List Char) : '\\' ∉ (modelPath w).text.toList := by
  rw [modelPath, String.toList_append, String.toList_ofList, List.mem_append, not_or]
  exact ⟨notMem_replace (by decide) _, by decide⟩

/-- The path of a controller's model has a doubled slash if and only if the class doubles a
backslash behind those it begins with. Its link has one behind the scheme if and only if it shows
an empty segment before its last; where no backslash stands for a slash, this is so if and only if
the path has a doubled slash or is shown from the root on. -/
theorem isNormal_modelFile?_iff
    (hd : ∀ q ∈ d.modelFields, ∃ name, q = Dialect.Usual.classField name) (hp : p.IsNormal)
    (hm : Path.IsNormal ⟨d.conventions.modelsDir⟩)
    (h : (ofSource d isFile p source).modelFile? = some m) :
    (∃ w, modelClass? d source = some w ∧
      (m.IsNormal ↔ IsSpaced '\\' (w.dropWhile (· = '\\')))) ∧
    ∀ r fs, ∀ c ∈ (Catalog.ofFiles r fs).controllers, ∀ e ∈ c.endpoints.head?,
      e.modelFile? = some m →
        c.uses.map (·.link) = [r.sourceUrl m] ∧
        (∀ i, m.slashed.segments.findIdx? (· == Repository.mark) = some i →
          (IsClean (r.sourceUrl m) ↔ [] ∉ (r.shown m i).dropLast)) ∧
        ('\\' ∉ p.text.toList → '\\' ∉ d.conventions.modelsDir.toList → m.IsNormal →
          (IsClean (r.sourceUrl m) ↔ ¬ r.ShowsRoot m)) := by
  obtain ⟨w, app, hw, ha, rfl, -⟩ := modelOf?_eq_some.mp h
  have hc := isClassChar_of_modelClass? hd hw
  refine ⟨⟨w, hw, ?_⟩, fun r fs c hmem e he hm => ⟨?_, ?_, ?_⟩⟩
  · rw [Path.isNormal_join_iff ((hp.ancestor? ha).join hm) (isAbsolute_modelPath hc),
      isNormal_modelPath hc]
  · rw [Catalog.uses_of_mem_controllers hmem, Option.mem_def.mp he, Option.bind_some, hm,
      Option.map_some, Option.toList_some, List.map_singleton, ModelLink.ofFile]
  · exact fun i => Repository.isClean_sourceUrl_iff
  · intro hb hd hn
    refine Repository.isClean_sourceUrl_of_isNormal ?_ hn
    have happ : '\\' ∉ app.text.toList := fun h => hb ((Path.text_prefix_of_ancestor? ha).subset h)
    have hs : '\\' ≠ '/' := by decide
    exact Path.notMem_join hs (Path.notMem_join hs happ hd) (backslash_notMem_modelPath w)

/-- Backslashes that a class begins with do no harm. -/
theorem isNormal_modelFile?_leading :
    let d : Dialect := .ofConventions {}
    let p : Path := ⟨"/x/src/controllers/A/Foo/Api/FooController.php"⟩
    let source := "<?php\n protected static $internalModelClass = '\\\\A\\Foo';\n".toList
    let m : Path := ⟨"/x/src/models/A/Foo.xml"⟩
    let e : Endpoint :=
      { verb := .get, module := "foo", controller := "foo", isAbstract := false,
        baseClass := "ApiMutableModelControllerBase", command := "get", parameters := [],
        fileName := "FooController.php", modelFile? := some m, kind := .resources }
    p.IsNormal ∧ Path.IsNormal ⟨d.conventions.modelsDir⟩ ∧
      (ofSource d (· == m) p source).modelFile? = some m ∧ m.IsNormal ∧
      ∀ c ∈ (Catalog.ofFiles .core [⟨p, [e]⟩]).controllers,
        c.uses.map (·.link) = [Repository.core.sourceUrl m] ∧
          IsClean (Repository.core.sourceUrl m) := by
  intro d p source m e
  have hd : ∀ q ∈ d.modelFields, ∃ name, q = Dialect.Usual.classField name :=
    List.forall_mem_cons.mpr ⟨⟨_, rfl⟩, List.forall_mem_singleton.mpr ⟨_, rfl⟩⟩
  have hp : p.IsNormal := by decide +kernel
  have hm : Path.IsNormal ⟨d.conventions.modelsDir⟩ := by decide +kernel
  have h : (ofSource d (· == m) p source).modelFile? = some m := by decide +kernel
  have hw : modelClass? d source = some "\\\\A\\Foo".toList := by decide +kernel
  obtain ⟨⟨w, hw', hn⟩, hl⟩ := isNormal_modelFile?_iff hd hp hm h
  obtain rfl := Option.some.inj (hw.symm.trans hw')
  have hn : m.IsNormal := hn.mpr (by decide +kernel)
  refine ⟨hp, hm, h, hn, fun c hc => ?_⟩
  have hr : ¬ Repository.core.ShowsRoot m := by
    rintro ⟨-, i, hi, hf⟩
    have hs : m.slashed.segments.findIdx? (· == Repository.mark) = some 2 := by decide +kernel
    obtain rfl := Option.some.inj (hs.symm.trans hf)
    exact absurd hi (by decide)
  have he : c.endpoints = [e] := by
    rw [Catalog.ofFiles, FileEndpoints.sort, List.mergeSort_singleton] at hc
    rw [List.mem_singleton.mp hc]
  obtain ⟨hu, -, hl⟩ := hl .core _ c hc e (he ▸ rfl) rfl
  exact ⟨hu, (hl (by decide +kernel) (by decide +kernel) hn).mpr hr⟩

/-- A class in double quotes, whose backslashes are written twice; and a plugin that lies at the
root. -/
theorem not_isNormal_modelFile? :
    let d : Dialect := .ofConventions {}
    let quoted :=
      "<?php\n protected static $internalModelClass = \"A\\\\Foo\";\n".toList
    let plain := "<?php\n protected static $internalModelClass = 'A\\Foo';\n".toList
    let p : Path := ⟨"/x/src/controllers/A/Foo/Api/FooController.php"⟩
    let q : Path := ⟨"/src/controllers/A/Foo/Api/FooController.php"⟩
    let m : Path := ⟨"/x/src/models/A//Foo.xml"⟩
    let n : Path := ⟨"/src/models/A/Foo.xml"⟩
    p.IsNormal ∧ q.IsNormal ∧ Path.IsNormal ⟨d.conventions.modelsDir⟩ ∧
      (ofSource d (· == m) p quoted).modelFile? = some m ∧ ¬ m.IsNormal ∧
      ¬ IsClean (Repository.core.sourceUrl m) ∧
      (ofSource d (· == n) q plain).modelFile? = some n ∧
      ¬ IsClean (Repository.plugins.sourceUrl n) := by
  decide +kernel

end Facts

end EndpointCatalog
