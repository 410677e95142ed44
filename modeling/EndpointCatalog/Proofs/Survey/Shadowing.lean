import EndpointCatalog.Proofs.Catalog.Sources
import EndpointCatalog.Proofs.Command.Name
import EndpointCatalog.Proofs.Controller.Actions
import EndpointCatalog.Proofs.Controller.Ids
import EndpointCatalog.Proofs.Controller.Inherited
import EndpointCatalog.Proofs.Survey.Shared

namespace EndpointCatalog

namespace Catalog

/-- Whether each command is found in its own file when it is looked up by its name. -/
def IsUnshadowed (ts : List (Path × Command)) : Prop :=
  ∀ t ∈ ts, ∀ u, ts.find? (·.2.name == t.2.name) = some u → u.1 = t.1

variable {ts : List (Path × Command)} {t : Path × Command}

theorem exists_find?_name (ht : t ∈ ts) :
    ∃ u ∈ ts, ts.find? (·.2.name == t.2.name) = some u ∧ t.2.name = u.2.name := by
  have hs : (ts.find? (·.2.name == t.2.name)).isSome :=
    List.find?_isSome.mpr ⟨t, ht, beq_self_eq_true _⟩
  obtain ⟨u, hu⟩ := Option.isSome_iff_exists.mp hs
  exact ⟨u, List.mem_of_find?_eq_some hu, hu, (beq_iff_eq.mp (List.find?_some hu :)).symm⟩

theorem isUnshadowed_iff :
    IsUnshadowed ts ↔ ∀ t ∈ ts, ∀ u ∈ ts, t.2.name = u.2.name → t.1 = u.1 := by
  constructor
  · intro h t ht u hu hn
    obtain ⟨w, -, hw, -⟩ := exists_find?_name ht
    have htw := h t ht w hw
    rw [hn] at hw
    exact htw.symm.trans (h u hu w hw)
  · intro h t ht u hu
    have hn : u.2.name = t.2.name := beq_iff_eq.mp (List.find?_some hu :)
    exact h u (List.mem_of_find?_eq_some hu) t ht hn

theorem not_isUnshadowed {u : Path × Command} (ht : t ∈ ts) (hu : u ∈ ts)
    (hn : t.2.name = u.2.name) (hp : t.1 ≠ u.1) : ¬ IsUnshadowed ts :=
  fun h => hp (isUnshadowed_iff.mp h t ht u hu hn)

theorem find?_map_snd (ts : List (Path × Command)) (name : String) :
    Command.find? (ts.map (·.2)) name = (ts.find? (·.2.name == name)).map (·.2) := by
  rw [Command.find?, List.find?_map]
  rfl

theorem mem_traced {fs : List FileEndpoints} :
    t ∈ traced fs ↔
      ∃ f ∈ fs, ∃ e ∈ f.endpoints, e.isCallable ∧ t = (f.path, Command.ofEndpoint e) := by
  simp only [traced, List.mem_flatMap, List.mem_map, List.mem_filter, (sources_perm fs).mem_iff]
  constructor
  · rintro ⟨f, ⟨hf, -⟩, e, ⟨he, hc⟩, rfl⟩
    exact ⟨f, hf, e, he, hc, rfl⟩
  · rintro ⟨f, hf, e, he, hc, rfl⟩
    refine ⟨f, ⟨hf, ?_⟩, e, ⟨he, hc⟩, rfl⟩
    rw [Bool.not_eq_true', List.isEmpty_eq_false_iff]
    exact List.ne_nil_of_mem he

end Catalog

namespace Survey

def ids (v : Survey) (p : Path) : String × String :=
  (Facts.moduleOf p,
    Facts.controllerOf (p.fileName?.getD "") v.dialect.conventions.controllerSuffix)

/-- Whether two commands of files have one name because of the paths of the files: the files have
the same module and the same controller, or one command spells out the other's name. -/
def Clash (v : Survey) (t u : Path × Command) : Prop :=
  v.ids t.1 = v.ids u.1 ∧ t.2.command = u.2.command ∨ t.2.Spells u.2 ∨ u.2.Spells t.2

variable {v : Survey} {isFile : Path → Bool} {sources : List (Path × List Char)}
  {t u : Path × Command}

theorem ids_of_mem_traced (h : t ∈ Catalog.traced (v.files isFile sources)) :
    (t.2.module, t.2.controller) = v.ids t.1 := by
  obtain ⟨f, hf, e, he, -, rfl⟩ := Catalog.mem_traced.mp h
  obtain ⟨g, -, rfl⟩ := List.mem_map.mp hf
  have ho : Facts.Owns _ _ e := owns_of_mem_analyze he
  rw [ho]
  rfl

theorem isPlaced_of_mem_traced (h : t ∈ Catalog.traced (v.files isFile sources)) :
    t.2.IsPlaced := by
  obtain ⟨hm, hc⟩ := Prod.mk.inj (ids_of_mem_traced h)
  rw [Command.IsPlaced, hm, hc]
  exact ⟨Facts.slash_notMem_moduleOf t.1,
    Facts.slash_notMem_controllerOf _ (Path.slash_notMem_fileName t.1)⟩

theorem name_eq_iff_clash (ht : t ∈ Catalog.traced (v.files isFile sources))
    (hu : u ∈ Catalog.traced (v.files isFile sources)) :
    t.2.name = u.2.name ↔ v.Clash t u := by
  rw [Command.name_eq_iff (isPlaced_of_mem_traced ht) (isPlaced_of_mem_traced hu), Clash,
    ← ids_of_mem_traced ht, ← ids_of_mem_traced hu, Prod.mk.injEq, and_assoc]

/-- No method is named with a slash, so a command that has one was added by the settings. -/
theorem exists_entry_of_slash {s : Settings} {p : Path} {source : List Char} {e : Endpoint}
    (h : e ∈ (ofSettings s).analyze isFile p source) (hs : '/' ∈ e.command.toList) :
    ∃ i ∈ s.inherited, i.command = e.command := by
  obtain ⟨-, h | h⟩ := mem_analyze.mp h
  · have hw := Method.isWord_command h '/' hs
    exact absurd hw (by decide +kernel)
  · have hu : ∀ r ∈ Inherited.usual.table, ∀ d ∈ r.2.map (·.1), '/' ∉ d.toList := by decide
    obtain ⟨c, hc, rfl⟩ := List.mem_map.mp h
    have hm := List.mem_map_of_mem (f := (·.1)) (List.mem_filter.mp hc).1
    let P (d : String) : Prop := '/' ∈ d.toList → ∃ i ∈ s.inherited, i.command = d
    have ha : ∀ i ∈ s.inherited, P i.command := fun i hi _ => ⟨i, hi, rfl⟩
    have ht : ∀ r ∈ Inherited.usual.table, ∀ d ∈ r.2.map (·.1), P d :=
      fun r hr d hd hs => absurd hs (hu r hr d hd)
    exact Inherited.forall_commandsOf ha ht _ c.1 hm hs

/-- Names of commands that were collected together are equal exactly if their files clash; looking
up a name finds the first of those commands, and finds each in its own file exactly if no two
files clash. -/
theorem find?_commands (s : Settings) (isFile : Path → Bool) (r : Repository)
    (sources : List (Path × List Char)) :
    let v := Survey.ofSettings s
    let fs := v.files isFile sources
    let c := Catalog.ofFiles r fs
    let ts := Catalog.traced fs
    c.controllers.map some = (Catalog.sources fs).map (fun f => (f.controller? r).map (·.2)) ∧
    c.commands = ts.map (·.2) ∧
    (∀ n, Command.find? c.commands n = (ts.find? (·.2.name == n)).map (·.2)) ∧
    (∀ t ∈ ts, ∀ u ∈ ts, t.2.name = u.2.name ↔ v.Clash t u) ∧
    (∀ t ∈ ts, '/' ∈ t.2.command.toList → ∃ i ∈ s.inherited, i.command = t.2.command) ∧
    (∀ t ∈ ts, ∃ u ∈ ts, ts.find? (·.2.name == t.2.name) = some u ∧ v.Clash t u) ∧
    (Catalog.IsUnshadowed ts ↔ ∀ t ∈ ts, ∀ u ∈ ts, v.Clash t u → t.1 = u.1) := by
  intro v fs c ts
  have hc : c.commands = ts.map (·.2) := Catalog.commands_ofFiles r fs
  have hn : ∀ t ∈ ts, ∀ u ∈ ts, t.2.name = u.2.name ↔ v.Clash t u :=
    fun t ht u hu => name_eq_iff_clash ht hu
  refine ⟨Catalog.controllers_ofFiles r fs, hc, ?_, hn, ?_, ?_, ?_⟩
  · intro n
    rw [hc, Catalog.find?_map_snd]
  · intro t ht hs
    obtain ⟨f, hf, e, he, -, rfl⟩ := Catalog.mem_traced.mp ht
    obtain ⟨g, -, rfl⟩ := List.mem_map.mp hf
    exact exists_entry_of_slash he hs
  · intro t ht
    obtain ⟨u, hu, hf, he⟩ := Catalog.exists_find?_name ht
    exact ⟨u, hu, hf, (hn t ht u hu).mp he⟩
  · rw [Catalog.isUnshadowed_iff]
    constructor
    · exact fun h t ht u hu hx => h t ht u hu ((hn t ht u hu).mpr hx)
    · exact fun h t ht u hu hx => h t ht u hu ((hn t ht u hu).mp hx)

theorem mem_traced_files {p : Path} {source : List Char} {e : Endpoint}
    (hs : (p, source) ∈ sources) (he : e ∈ v.analyze isFile p source) (hc : e.isCallable) :
    (p, Command.ofEndpoint e) ∈ Catalog.traced (v.files isFile sources) :=
  Catalog.mem_traced.mpr ⟨_, List.mem_map_of_mem hs, e, he, hc, rfl⟩

/-- Directories above the module do not count, and below the root even the parts of a name can
shift. -/
theorem not_isUnshadowed_files :
    let plain :=
      "<?php\nclass BController extends A \x7b\n public function getAction() \x7b\x7d\n\x7d"
    let withId :=
      "<?php\nclass BController extends A \x7b\n public function getAction($i) \x7b\x7d\n\x7d"
    let derived :=
      "<?php\nclass Controller extends A \x7b\n public function setAction() \x7b\x7d\n\x7d"
    ¬ Catalog.IsUnshadowed (Catalog.traced ((ofSettings {}).files (fun _ => false)
      [(⟨"/x/Foo/Api/BController.php"⟩, plain.toList),
        (⟨"/y/Foo/Api/BController.php"⟩, withId.toList)])) ∧
    ¬ Catalog.IsUnshadowed (Catalog.traced
      ((ofSettings { inherited := [⟨"A", "b/get", .get⟩] }).files (fun _ => false)
        [(⟨"/x/BController.php"⟩, plain.toList), (⟨"Controller.php"⟩, derived.toList)])) := by
  intro plain withId derived
  have hp : plain.toList = _ := String.toList_ofList
  have hi : withId.toList = _ := String.toList_ofList
  have hd : derived.toList = _ := String.toList_ofList
  rw [hp, hi, hd]
  constructor
  · let e : Endpoint := ⟨.get, "foo", "b", false, "A", "get", [], "BController.php", none,
      .resources⟩
    let i : Endpoint := { e with parameters := ["i"] }
    refine Catalog.not_isUnshadowed
      (mem_traced_files (e := e) List.mem_cons_self ?_ rfl)
      (mem_traced_files (e := i) (List.mem_cons_of_mem _ List.mem_cons_self) ?_ rfl)
      rfl (by decide)
    · exact mem_analyze_of_mem_actions (by decide +kernel)
    · exact mem_analyze_of_mem_actions (by decide +kernel)
  · let e : Endpoint := ⟨.get, "/", "b", false, "A", "get", [], "BController.php", none,
      .resources⟩
    let i : Endpoint := ⟨.get, "", "", false, "A", "b/get", [], "Controller.php", none,
      .resources⟩
    refine Catalog.not_isUnshadowed
      (mem_traced_files (e := e) List.mem_cons_self ?_ rfl)
      (mem_traced_files (e := i) (List.mem_cons_of_mem _ List.mem_cons_self) ?_ rfl)
      rfl (by decide)
    · exact mem_analyze_of_mem_actions (by decide +kernel)
    · exact mem_analyze.mpr (by decide +kernel)

end Survey

end EndpointCatalog
