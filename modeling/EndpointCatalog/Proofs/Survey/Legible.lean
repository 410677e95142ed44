import EndpointCatalog.Proofs.Catalog.Modules
import EndpointCatalog.Proofs.Command.Listing
import EndpointCatalog.Proofs.Survey.Shadowing

namespace EndpointCatalog

theorem Endpoint.qualifiedName_eq_name (e : Endpoint) :
    e.qualifiedName = (Command.ofEndpoint e).name := rfl

namespace Survey

/-- Whether a catalog is put together from what a survey finds in some files. -/
def Yields (v : Survey) (c : Catalog) : Prop :=
  ∃ isFile r sources, c = Catalog.ofFiles r (v.files isFile sources)

variable {v : Survey} {s : Settings} {c d : Catalog} {e : Endpoint} {a : Command}

theorem bind_eq_ok {α β : Type} {x : Except Fault α} {f : α → Except Fault β} {y : β} :
    x >>= f = .ok y ↔ ∃ a, x = .ok a ∧ f a = .ok y := by
  cases x with
  | error e =>
    refine iff_of_false nofun ?_
    rintro ⟨a, ha, -⟩
    cases ha
  | ok a =>
    constructor
    · exact fun h => ⟨a, rfl, h⟩
    · rintro ⟨b, hb, h⟩
      cases hb
      exact h

theorem analyzeFile_eq_ok {w : Workspace} {p : Path} {es : List Endpoint}
    (h : v.analyzeFile w p = .ok es) : ∃ source, es = v.analyze w.isFile p source := by
  rw [analyzeFile] at h
  split at h
  · cases h
  · cases h
    exact ⟨_, rfl⟩

theorem exists_sources_of_mapM {w : Workspace} {paths : List Path} {fs : List FileEndpoints}
    (h : paths.mapM (fun p => return { path := p, endpoints := ← v.analyzeFile w p }) =
      Except.ok fs) : ∃ sources, fs = v.files w.isFile sources := by
  induction paths generalizing fs with
  | nil =>
    cases h
    exact ⟨[], rfl⟩
  | cons p paths ih =>
    rw [List.mapM_cons] at h
    obtain ⟨f, hf, h⟩ := bind_eq_ok.mp h
    obtain ⟨gs, hg, h⟩ := bind_eq_ok.mp h
    obtain ⟨es, he, hf⟩ := bind_eq_ok.mp hf
    obtain ⟨source, rfl⟩ := analyzeFile_eq_ok he
    obtain ⟨sources, rfl⟩ := ih hg
    cases hf
    cases h
    exact ⟨(p, source) :: sources, rfl⟩

theorem yields_of_collect {w : Workspace} {root : Path} {r : Repository}
    (h : v.collect w root r = .ok c) : v.Yields c := by
  rw [collect] at h
  obtain ⟨paths, -, h⟩ := bind_eq_ok.mp h
  obtain ⟨fs, hf, h⟩ := bind_eq_ok.mp h
  obtain ⟨sources, rfl⟩ := exists_sources_of_mapM hf
  cases h
  exact ⟨w.isFile, r, sources, rfl⟩

theorem mem_endpoints_ofFiles {isFile : Path → Bool} {r : Repository}
    {sources : List (Path × List Char)} :
    e ∈ (Catalog.ofFiles r (v.files isFile sources)).endpoints ↔
      ∃ f ∈ sources, e ∈ v.analyze isFile f.1 f.2 := by
  rw [(Catalog.endpoints_ofFiles_perm r _).mem_iff, files, List.flatMap_map, List.mem_flatMap]

theorem exists_source_of_mem_endpoints (hc : v.Yields c) (he : e ∈ c.endpoints) :
    ∃ isFile p source, e ∈ v.analyze isFile p source := by
  obtain ⟨isFile, r, sources, rfl⟩ := hc
  obtain ⟨f, -, he⟩ := mem_endpoints_ofFiles.mp he
  exact ⟨isFile, f.1, f.2, he⟩

theorem slash_notMem_controller {isFile : Path → Bool} {p : Path} {source : List Char}
    (h : e ∈ v.analyze isFile p source) : '/' ∉ e.controller.toList := by
  have ho : Facts.Owns _ _ e := owns_of_mem_analyze h
  rw [ho]
  exact Facts.slash_notMem_controllerOf _ (Path.slash_notMem_fileName p)

theorem isLegible_of_mem_endpoints (hs : ∀ i ∈ s.inherited, '/' ∉ i.command.toList)
    (hc : (ofSettings s).Yields c) (he : e ∈ c.endpoints) : (Command.ofEndpoint e).IsLegible := by
  obtain ⟨isFile, p, source, he⟩ := exists_source_of_mem_endpoints hc he
  refine ⟨slash_notMem_controller he, fun hm => ?_⟩
  obtain ⟨i, hi, hn⟩ := exists_entry_of_slash he hm
  refine hs i hi ?_
  rw [hn]
  exact hm

theorem isLegible_of_mem_commands (hs : ∀ i ∈ s.inherited, '/' ∉ i.command.toList)
    (hc : (ofSettings s).Yields c) (ha : a ∈ c.commands) : a.IsLegible := by
  obtain ⟨e, he, rfl⟩ := List.mem_map.mp ha
  exact isLegible_of_mem_endpoints hs hc (List.mem_filter.mp he).1

/-- If no command of the settings has a slash, names and groups of collected endpoints are equal
exactly if their parts are. So each command is looked up by its name as one of the same parts, and
no group has commands of two controllers. -/
theorem qualifiedName_eq_iff (hs : ∀ i ∈ s.inherited, '/' ∉ i.command.toList)
    (hc : (ofSettings s).Yields c) (hd : (ofSettings s).Yields d) :
    (∀ e ∈ c.endpoints, ∀ f ∈ d.endpoints,
      (e.qualifiedName = f.qualifiedName ↔
        e.module = f.module ∧ e.controller = f.controller ∧ e.command = f.command) ∧
      ((Command.ofEndpoint e).group = (Command.ofEndpoint f).group ↔
        e.module = f.module ∧ e.controller = f.controller)) ∧
    (∀ a ∈ c.commands, ∃ b ∈ c.commands, Command.find? c.commands a.name = some b) ∧
    (∀ a ∈ c.commands, ∀ b, Command.find? d.commands a.name = some b →
      b.module = a.module ∧ b.controller = a.controller ∧ b.command = a.command) ∧
    ∀ g ∈ Command.grouped c.commands, ∀ a ∈ g.2, ∀ b ∈ g.2,
      a.module = b.module ∧ a.controller = b.controller := by
  refine ⟨fun e he f hf => ?_, fun a ha => ?_, fun a ha b hb => ?_, fun g hg a ha b hb => ?_⟩
  · have hle := isLegible_of_mem_endpoints hs hc he
    have hlf := isLegible_of_mem_endpoints hs hd hf
    refine ⟨?_, Command.group_eq_iff hle.1 hlf.1⟩
    rw [e.qualifiedName_eq_name, f.qualifiedName_eq_name, Command.name_eq_iff_of_isLegible hle hlf]
    rfl
  · have hf : (Command.find? c.commands a.name).isSome :=
      List.find?_isSome.mpr ⟨a, ha, beq_self_eq_true _⟩
    obtain ⟨b, hb⟩ := Option.isSome_iff_exists.mp hf
    exact ⟨b, List.mem_of_find?_eq_some hb, hb⟩
  · have hn : b.name = a.name := Command.name_of_find? hb
    have hlb := isLegible_of_mem_commands hs hd (List.mem_of_find?_eq_some hb)
    exact (Command.name_eq_iff_of_isLegible hlb (isLegible_of_mem_commands hs hc ha)).mp hn
  · obtain ⟨ha, hga⟩ := Command.mem_of_mem_grouped hg ha
    obtain ⟨hb, hgb⟩ := Command.mem_of_mem_grouped hg hb
    have hla := isLegible_of_mem_commands hs hc ha
    have hlb := isLegible_of_mem_commands hs hc hb
    exact (Command.group_eq_iff hla.1 hlb.1).mp (hga.trans hgb.symm)

/-- A file whose module is the root, beside one whose module and controller are empty. -/
theorem qualifiedName_eq_iff_root :
    let s : Settings := { inherited := [⟨"A", "b_get", .get⟩] }
    let plain :=
      "<?php\nclass BController extends A \x7b\n public function getAction() \x7b\x7d\n\x7d"
    let c := Catalog.ofFiles .core ((ofSettings s).files (fun _ => false)
      [(⟨"/x/BController.php"⟩, plain.toList), (⟨"Controller.php"⟩, plain.toList)])
    let e : Endpoint := ⟨.get, "/", "b", false, "A", "get", [], "BController.php", none, .resources⟩
    let f : Endpoint := ⟨.get, "", "", false, "A", "b_get", [], "Controller.php", none, .resources⟩
    (∀ i ∈ s.inherited, '/' ∉ i.command.toList) ∧ (ofSettings s).Yields c ∧
      e ∈ c.endpoints ∧ f ∈ c.endpoints ∧
      e.qualifiedName = "//b/get" ∧ f.qualifiedName = "//b_get" ∧
      e.qualifiedName ≠ f.qualifiedName ∧
      ∀ b, Command.find? c.commands "//b_get" = some b → b.module = "" ∧ b.controller = "" := by
  intro s plain c e f
  have hs : ∀ i ∈ s.inherited, '/' ∉ i.command.toList :=
    List.forall_mem_singleton.mpr (by decide)
  have hc : (ofSettings s).Yields c := ⟨_, _, _, rfl⟩
  have hp : plain.toList = _ := String.toList_ofList
  have he : e ∈ c.endpoints := by
    refine mem_endpoints_ofFiles.mpr ⟨_, List.mem_cons_self, ?_⟩
    rw [hp]
    exact mem_analyze_of_mem_actions (by decide +kernel)
  have hf : f ∈ c.endpoints := by
    refine mem_endpoints_ofFiles.mpr ⟨_, List.mem_cons_of_mem _ List.mem_cons_self, ?_⟩
    rw [hp]
    exact mem_analyze.mpr (by decide +kernel)
  obtain ⟨hn, -, hl, -⟩ := qualifiedName_eq_iff hs hc hc
  have hfc : Command.ofEndpoint f ∈ c.commands :=
    List.mem_map_of_mem (List.mem_filter.mpr ⟨hf, rfl⟩)
  refine ⟨hs, hc, he, hf, rfl, rfl, ?_, fun b hb => ?_⟩
  · exact fun h => absurd ((hn e he f hf).1.mp h).1 (by decide)
  · obtain ⟨hm, hk, -⟩ := hl _ hfc b hb
    exact ⟨hm, hk⟩

end Survey

end EndpointCatalog
