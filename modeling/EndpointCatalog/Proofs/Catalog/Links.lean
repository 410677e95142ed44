import EndpointCatalog.Proofs.Catalog.Sources
import EndpointCatalog.Proofs.Path.Join

namespace EndpointCatalog

open Text.Blank Text.Search

namespace Path

def slashed (p : Path) : Path := ⟨String.ofList (replace '\\' '/' p.text.toList)⟩

theorem segments_slashed (p : Path) :
    p.slashed.segments = (replace '\\' '/' p.text.toList).splitOn '/' := by
  rw [segments, slashed, String.toList_ofList]

theorem text_slashed (p : Path) :
    p.slashed.text = String.ofList (['/'].intercalate p.slashed.segments) := by
  rw [segments_slashed, List.intercalate_splitOn, slashed]

theorem slashed_of_notMem {p : Path} (h : '\\' ∉ p.text.toList) : p.slashed = p := by
  rw [slashed, replace_of_notMem h, String.ofList_toList]

theorem segments_slashed_join {q : Path} (hq : q.isAbsolute = false) (p : Path) :
    ∃ ss, (p.join q).slashed.segments = ss ++ q.slashed.segments ∧
      ∀ s ≠ [], s ∈ ss ↔ s ∈ p.slashed.segments := by
  by_cases hp : p.text = ""
  · refine ⟨[], by rw [join_of_text_eq hp hq, List.nil_append], fun s hs => ?_⟩
    have he : p.slashed.segments = [[]] := by
      rw [segments_slashed, hp]
      rfl
    rw [he, List.mem_singleton]
    exact iff_of_false List.not_mem_nil hs
  · obtain ⟨x, hj, hx⟩ := toList_join hp hq
    have hr : ∀ y, replace '\\' '/' ('/' :: y) = '/' :: replace '\\' '/' y := fun _ => rfl
    refine ⟨(replace '\\' '/' x).splitOn '/', ?_, fun s hs => ?_⟩
    · rw [segments_slashed, hj, replace_append, hr, List.splitOn_append_cons_self, segments_slashed]
    · obtain hx | hx := hx
      · rw [segments_slashed, hx]
      · rw [segments_slashed, hx, replace_append, hr, List.splitOn_append_cons_self,
          List.mem_append]
        exact (or_iff_left fun h => hs (List.mem_singleton.mp h)).symm

end Path

namespace Repository

/-- The segment below which the parts of a repository have their sources. -/
def mark : List Char := "src".toList

theorem mark_ne_nil : mark ≠ [] := by decide +kernel

def site (r : Repository) : String := "https://github.com/opnsense/" ++ r.name ++ "/blob/master/"

/-- The address of a file of the repository, by its path in it. -/
def address (r : Repository) (p : Path) : String := r.site ++ p.slashed.text

/-- Whether a path leads from the root of a repository into the sources of one of its parts. -/
structure LiesIn (r : Repository) (p : Path) : Prop where
  relative : p.isAbsolute = false
  first : p.slashed.segments.findIdx? (· == mark) = some r.depth

instance (r : Repository) (p : Path) : Decidable (r.LiesIn p) :=
  decidable_of_iff
    (p.isAbsolute = false ∧ p.slashed.segments.findIdx? (· == mark) = some r.depth)
    ⟨fun h => ⟨h.1, h.2⟩, fun h => ⟨h.1, h.2⟩⟩

variable {r : Repository} {p : Path} {i : Nat}

theorem sourceUrl_of_findIdx? (h : p.slashed.segments.findIdx? (· == mark) = some i) :
    r.sourceUrl p =
      r.site ++ String.ofList (['/'].intercalate (p.slashed.segments.drop (i - r.depth))) := by
  rw [sourceUrl]
  simp only [← Path.segments_slashed]
  rw [← mark, h]
  dsimp only [site]

/-- The address of a file is found if the directory of the checkout has no segment `src`. -/
theorem sourceUrl_join (h : r.LiesIn p) {d : Path} (hd : mark ∉ d.slashed.segments) :
    r.sourceUrl (d.join p) = r.address p := by
  obtain ⟨ss, hj, hs⟩ := Path.segments_slashed_join h.relative d
  have hn : ss.findIdx? (· == mark) = none := by
    refine List.findIdx?_eq_none_iff.mpr fun s hm => beq_eq_false_iff_ne.mpr ?_
    rintro rfl
    exact hd ((hs mark mark_ne_nil).mp hm)
  have hi : (d.join p).slashed.segments.findIdx? (· == mark) = some (r.depth + ss.length) := by
    rw [hj, List.findIdx?_append, hn, h.first]
    rfl
  rw [sourceUrl_of_findIdx? hi, hj, Nat.add_sub_cancel_left, List.drop_left, ← Path.text_slashed,
    address]

/-- A segment `src` of the directory is taken for the one of the file. -/
theorem sourceUrl_join_ne (h : r.LiesIn p) {d : Path} (hd : mark ∈ d.slashed.segments) :
    r.sourceUrl (d.join p) ≠ r.address p := by
  obtain ⟨ss, hj, hs⟩ := Path.segments_slashed_join h.relative d
  have hm : mark ∈ ss := (hs mark mark_ne_nil).mpr hd
  obtain ⟨i, hi⟩ : ∃ i, ss.findIdx? (· == mark) = some i := by
    rw [← Option.isSome_iff_exists, List.findIdx?_isSome, List.any_eq_true]
    exact ⟨mark, hm, beq_self_eq_true mark⟩
  have hlt : i - r.depth < ss.length :=
    Nat.lt_of_le_of_lt (Nat.sub_le i _) (List.findIdx?_eq_some_iff_findIdx_eq.mp hi).1
  have hu : (d.join p).slashed.segments.findIdx? (· == mark) = some i := by
    rw [hj, List.findIdx?_append, hi]
    rfl
  rw [sourceUrl_of_findIdx? hu, hj, List.drop_append_of_le_length (Nat.le_of_lt hlt), address,
    Path.text_slashed]
  intro he
  have he := congrArg String.toList he
  rw [String.toList_append, String.toList_append, List.append_cancel_left_eq,
    String.toList_ofList, String.toList_ofList] at he
  have hn : ss.drop (i - r.depth) ≠ [] := by
    rw [ne_eq, List.drop_eq_nil_iff]
    exact Nat.not_le_of_lt hlt
  have hl : (['/'].intercalate p.slashed.segments).length <
      (['/'].intercalate (ss.drop (i - r.depth) ++ p.slashed.segments)).length :=
    length_intercalate_lt hn (Path.segments_ne_nil _)
  rw [he] at hl
  exact Nat.lt_irrefl _ hl

theorem sourceUrl_join_iff (h : r.LiesIn p) (d : Path) :
    r.sourceUrl (d.join p) = r.address p ↔ mark ∉ d.slashed.segments :=
  ⟨fun he hd => sourceUrl_join_ne h hd he, sourceUrl_join h⟩

end Repository

namespace Catalog

variable {r : Repository} {fs : List FileEndpoints} {c : Controller}

theorem uses_of_mem_controllers (h : c ∈ (ofFiles r fs).controllers) :
    c.uses = ((c.endpoints.head?.bind (·.modelFile?)).map (ModelLink.ofFile r)).toList := by
  have hm : some c ∈ (ofFiles r fs).controllers.map some := List.mem_map_of_mem h
  rw [controllers_ofFiles] at hm
  obtain ⟨f, -, hf⟩ := List.mem_map.mp hm
  obtain ⟨g, hg, rfl⟩ := Option.map_eq_some_iff.mp hf
  obtain ⟨e, he, rfl⟩ := Option.map_eq_some_iff.mp hg
  simp only [he, Option.bind_some]

/-- The link to a file of a checkout is the address of the file if and only if the directory of the
checkout has no segment `src`, so it is the same for all such directories. -/
theorem link_join_iff {p : Path} (h : r.LiesIn p) (d : Path) :
    (r.sourceUrl (d.join p) = r.address p ↔ Repository.mark ∉ d.slashed.segments) ∧
    (∀ fs, ∀ c ∈ (ofFiles r fs).controllers, ∀ e ∈ c.endpoints.head?,
      e.modelFile? = some (d.join p) →
        (c.uses.map (·.link) = [r.address p] ↔ Repository.mark ∉ d.slashed.segments)) ∧
    ('\\' ∉ p.text.toList → r.address p = r.site ++ p.text) := by
  refine ⟨Repository.sourceUrl_join_iff h d, fun fs c hc e he hm => ?_, fun hp => ?_⟩
  · have hu : c.uses.map (·.link) = [r.sourceUrl (d.join p)] := by
      rw [uses_of_mem_controllers hc, Option.mem_def.mp he, Option.bind_some, hm]
      rfl
    rw [hu, ← Repository.sourceUrl_join_iff h d, List.cons.injEq, and_iff_left rfl]
  · rw [Repository.address, Path.slashed_of_notMem hp]

/-- A checkout of the plugins in a directory for temporary files. -/
theorem link_join_tmp :
    let r := Repository.plugins
    let p : Path := ⟨"net/frr/src/opnsense/mvc/app/models/OPNsense/Quagga/src/BGP.xml"⟩
    let d : Path := ⟨"/tmp/plugins"⟩
    let e : Endpoint :=
      { verb := .get, module := "quagga", controller := "bgp", isAbstract := false,
        baseClass := "ApiMutableModelControllerBase", command := "get", parameters := [],
        fileName := "BgpController.php", modelFile? := some (d.join p), kind := .resources }
    r.LiesIn p ∧ r.sourceUrl (d.join p) =
      "https://github.com/opnsense/plugins/blob/master/" ++ p.text ∧
    ∀ c ∈ (ofFiles r [⟨⟨"/tmp/plugins/net/frr/BgpController.php"⟩, [e]⟩]).controllers,
      c.uses.map (·.link) = ["https://github.com/opnsense/plugins/blob/master/" ++ p.text] := by
  intro r p d e
  have hp : r.LiesIn p := by decide +kernel
  have hd : Repository.mark ∉ d.slashed.segments := by decide +kernel
  obtain ⟨hu, hl, ha⟩ := link_join_iff hp d
  have ha : r.address p = "https://github.com/opnsense/plugins/blob/master/" ++ p.text :=
    ha (by decide +kernel)
  rw [← ha]
  refine ⟨hp, hu.mpr hd, fun c hc => (hl _ c hc e ?_ rfl).mpr hd⟩
  rw [ofFiles, FileEndpoints.sort, List.mergeSort_singleton] at hc
  obtain rfl := List.mem_singleton.mp hc
  rfl

/-- A checkout below a directory `src`. -/
theorem link_join_below_src :
    let p : Path := ⟨"src/opnsense/mvc/app/models/OPNsense/Firewall/Alias.xml"⟩
    let d : Path := ⟨"/usr/src/core"⟩
    d.isAbsolute = true ∧ Repository.core.LiesIn p ∧
      Repository.core.sourceUrl (d.join p) =
        "https://github.com/opnsense/core/blob/master/src/core/" ++ p.text ∧
      Repository.core.sourceUrl (d.join p) ≠
        "https://github.com/opnsense/core/blob/master/" ++ p.text := by
  decide +kernel

end Catalog

end EndpointCatalog
