import EndpointCatalog.Proofs.Catalog.Sources
import EndpointCatalog.Proofs.Endpoint
import EndpointCatalog.Proofs.Survey.Shared
import EndpointCatalog.Proofs.Text.Bytes
import EndpointCatalog.Proofs.Text.Search

namespace EndpointCatalog

open Text

namespace Kind

variable {isAbstract : Bool} {controller marker : String}

theorem classify_eq_abstract : classify isAbstract controller marker = abstract ↔ isAbstract := by
  rw [classify]
  split
  · exact iff_of_true rfl ‹_›
  · refine iff_of_false ?_ ‹_›
    split <;> nofun

theorem classify_eq_service (h : isAbstract = false) :
    classify isAbstract controller marker = service ↔ marker.toList <:+: controller.toList := by
  rw [classify, h, if_neg Bool.false_ne_true, ← Search.contains_iff, Search.holds]
  split
  · exact iff_of_true rfl ‹_›
  · exact iff_of_false nofun ‹_›

end Kind

/-- Whether a controller of a module has its endpoints in order and speaks for all of them. -/
structure Controller.IsUniform (r : Repository) (marker module : String) (c : Controller) :
    Prop where
  ne_nil : c.endpoints ≠ []
  sorted : c.endpoints.Pairwise fun a b => Bytes.encode a.command ≤ Bytes.encode b.command
  shared : ∀ e ∈ c.endpoints, e.module = module ∧ e.fileName = c.fileName ∧
    e.baseClass = c.baseClass ∧ e.isAbstract = c.isAbstract ∧ e.kind = c.kind
  abstract_iff : c.kind = .abstract ↔ c.isAbstract
  named : ∃ name : String, (∀ e ∈ c.endpoints, e.controller = name) ∧
    (c.isAbstract = false → (c.kind = .service ↔ marker.toList <:+: name.toList))
  model : ∃ model? : Option Path, (∀ e ∈ c.endpoints, e.modelFile? = model?) ∧
    c.uses = (model?.map (ModelLink.ofFile r)).toList ∧ (c.uses.length = 1 ↔ model?.isSome)

namespace Facts

variable {f : Facts} {marker : String} {e : Endpoint}

theorem Owns.shared (h : f.Owns marker e) :
    e.module = f.module ∧ e.fileName = f.fileName ∧ e.baseClass = f.baseClass ∧
      e.isAbstract = f.isAbstract ∧ e.kind = f.kind marker :=
  ⟨congrArg (·.module) h, congrArg (·.fileName) h, congrArg (·.baseClass) h,
    congrArg (·.isAbstract) h, congrArg (·.kind) h⟩

theorem Owns.controller (h : f.Owns marker e) : e.controller = f.controller :=
  congrArg (·.controller) h

theorem Owns.modelFile? (h : f.Owns marker e) : e.modelFile? = f.modelFile? :=
  congrArg (·.modelFile?) h

end Facts

namespace Survey

variable {isFile : Path → Bool} {p : Path} {source : List Char}

theorem pairwise_analyze (v : Survey) :
    (v.analyze isFile p source).Pairwise fun a b => a.command ≤ b.command := by
  rw [analyze]
  split
  · exact List.Pairwise.nil
  · exact Endpoint.pairwise_sort _

theorem isUniform_of_controller? {s : Settings} {r : Repository} {m : String} {c : Controller}
    (h : FileEndpoints.controller? r ⟨p, (ofSettings s).analyze isFile p source⟩ = some (m, c)) :
    c.IsUniform r s.conventions.serviceMarker m := by
  obtain ⟨e, he, hc⟩ := Option.map_eq_some_iff.mp h
  obtain ⟨rfl, rfl⟩ := Prod.mk.inj hc
  have hm : e ∈ (ofSettings s).analyze isFile p source := List.mem_of_mem_head? he
  let f := Facts.ofSource (ofSettings s).dialect isFile p source
  have ho : ∀ d ∈ (ofSettings s).analyze isFile p source,
      f.Owns s.conventions.serviceMarker d := fun d hd => owns_of_mem_analyze hd
  obtain ⟨hmod, hfile, hbase, habs, hkind⟩ := (ho e hm).shared
  exact {
    ne_nil := List.ne_nil_of_mem hm
    sorted := (pairwise_analyze _).imp Bytes.encode_le_encode.mpr
    shared := by
      intro d hd
      obtain ⟨hmod', hfile', hbase', habs', hkind'⟩ := (ho d hd).shared
      exact ⟨hmod'.trans hmod.symm, hfile'.trans hfile.symm, hbase'.trans hbase.symm,
        habs'.trans habs.symm, hkind'.trans hkind.symm⟩
    abstract_iff := by
      show e.kind = .abstract ↔ e.isAbstract
      rw [hkind, habs]
      exact Kind.classify_eq_abstract
    named := by
      refine ⟨f.controller, fun d hd => (ho d hd).controller, fun ha => ?_⟩
      show e.kind = .service ↔ _
      rw [hkind]
      exact Kind.classify_eq_service (habs.symm.trans ha)
    model := by
      refine ⟨f.modelFile?, fun d hd => (ho d hd).modelFile?, ?_⟩
      show (e.modelFile?.map (ModelLink.ofFile r)).toList = _ ∧
        ((e.modelFile?.map (ModelLink.ofFile r)).toList.length = 1 ↔ _)
      rw [(ho e hm).modelFile?]
      cases f.modelFile? <;> simp }

end Survey

namespace Catalog

/-- The commands of a catalog are all endpoints of those controllers that are not abstract. -/
theorem commands_eq_flatMap {c : Catalog}
    (h : ∀ d ∈ c.controllers, ∀ e ∈ d.endpoints, e.isAbstract = d.isAbstract) :
    c.commands = c.controllers.flatMap fun d =>
      if d.isAbstract then [] else d.endpoints.map Command.ofEndpoint := by
  rw [commands, endpoints, List.filter_flatMap, List.map_flatMap, List.flatMap_def,
    List.flatMap_def]
  congr 1
  refine List.map_congr_left fun d hd => ?_
  split
  · rename_i ha
    have hn : d.endpoints.filter (·.isCallable) = [] := by
      refine List.filter_eq_nil_iff.mpr fun e he => ?_
      rw [Endpoint.isCallable, h d hd e he, ha]
      decide
    rw [hn, List.map_nil]
  · rename_i ha
    have hs : d.endpoints.filter (·.isCallable) = d.endpoints := by
      refine List.filter_eq_self.mpr fun e he => ?_
      rw [Endpoint.isCallable, h d hd e he, Bool.eq_false_iff.mpr ha]
      rfl
    rw [hs]

/-- Each module of a collected catalog has a controller, each controller is true to its endpoints,
and the commands are the endpoints of the controllers that are not abstract. -/
theorem isUniform_ofFiles (s : Settings) (isFile : Path → Bool) (r : Repository)
    (sources : List (Path × List Char)) :
    let c := ofFiles r ((Survey.ofSettings s).files isFile sources)
    (∀ g ∈ c.modules, g.2 ≠ [] ∧ ∀ d ∈ g.2, d.IsUniform r s.conventions.serviceMarker g.1) ∧
    c.commands = c.controllers.flatMap fun d =>
      if d.isAbstract then [] else d.endpoints.map Command.ofEndpoint := by
  intro c
  have hu : Groups.Each (fun m d => d.IsUniform r s.conventions.serviceMarker m) c.modules := by
    intro g hg
    obtain ⟨hn, hm⟩ := Groups.each_ofPairs _ g hg
    refine ⟨hn, fun d hd => ?_⟩
    obtain ⟨f, hf, hc⟩ := List.mem_filterMap.mp (hm d hd)
    obtain ⟨t, -, rfl⟩ := List.mem_map.mp ((FileEndpoints.sort_perm _).mem_iff.mp hf)
    exact Survey.isUniform_of_controller? hc
  refine ⟨hu, commands_eq_flatMap fun d hd e he => ?_⟩
  obtain ⟨g, hg, hdg⟩ := List.mem_flatMap.mp hd
  exact (((hu g hg).2 d hdg).shared e he).2.2.2.1

end Catalog

end EndpointCatalog
