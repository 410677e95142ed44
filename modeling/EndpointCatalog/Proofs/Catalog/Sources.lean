import EndpointCatalog.Command.Basic
import EndpointCatalog.Proofs.Groups

namespace EndpointCatalog

namespace FileEndpoints

def placed? (f : FileEndpoints) : Option (String × FileEndpoints) :=
  f.endpoints.head?.map fun e => (e.module, f)

theorem sort_perm (fs : List FileEndpoints) : (sort fs).Perm fs := List.mergeSort_perm fs _

theorem map_snd_placed? (f : FileEndpoints) :
    f.placed?.map (·.2) = if f.endpoints.isEmpty then none else some f := by
  rw [placed?]
  cases f.endpoints <;> rfl

theorem map_controller?_placed? (r : Repository) (f : FileEndpoints) :
    f.placed?.map (fun g => (g.1, (g.2.controller? r).map (·.2))) =
      (f.controller? r).map fun c => (c.1, some c.2) := by
  have h : f.endpoints.head?.map (fun e => (e.module, (f.controller? r).map (·.2))) =
      (f.controller? r).map fun c => (c.1, some c.2) := by
    rw [controller?]
    cases f.endpoints.head? <;> rfl
  rw [placed?, Option.map_map]
  exact h

end FileEndpoints

namespace Catalog

/-- The files with an endpoint, in the order of their controllers. -/
def sources (fs : List FileEndpoints) : List FileEndpoints :=
  (Groups.ofPairs ((FileEndpoints.sort fs).filterMap (·.placed?))).values

/-- The commands that can be called, each with the path of its file, in the order of the catalog. -/
def traced (fs : List FileEndpoints) : List (Path × Command) :=
  (sources fs).flatMap fun f =>
    (f.endpoints.filter (·.isCallable)).map fun e => (f.path, Command.ofEndpoint e)

variable (r : Repository) (fs : List FileEndpoints)

theorem sources_perm : (sources fs).Perm (fs.filter fun f => !f.endpoints.isEmpty) := by
  refine (Groups.values_ofPairs_perm _).trans ?_
  have h : (fun f : FileEndpoints => f.placed?.map (·.2)) =
      Option.guard fun f => !f.endpoints.isEmpty := by
    funext f
    rw [FileEndpoints.map_snd_placed?, Option.guard]
    cases f.endpoints.isEmpty <;> rfl
  rw [List.map_filterMap, h, List.filterMap_eq_filter]
  exact (FileEndpoints.sort_perm fs).filter _

theorem controllers_ofFiles :
    (ofFiles r fs).controllers.map some = (sources fs).map fun f => (f.controller? r).map (·.2) := by
  have hc : (ofFiles r fs).controllers =
    (Groups.ofPairs ((FileEndpoints.sort fs).filterMap (·.controller? r))).values := rfl
  rw [hc, sources, ← Groups.values_mapValues, ← Groups.values_mapValues, Groups.mapValues_ofPairs,
    Groups.mapValues_ofPairs, List.map_filterMap, List.map_filterMap]
  simp only [FileEndpoints.map_controller?_placed?]

theorem ne_nil_of_mem_sources {f : FileEndpoints} (hf : f ∈ sources fs) : f.endpoints ≠ [] := by
  have h := (List.mem_filter.mp ((sources_perm fs).mem_iff.mp hf)).2
  intro he
  rw [he] at h
  cases h

theorem map_endpoints_controllers :
    (ofFiles r fs).controllers.map (·.endpoints) = (sources fs).map (·.endpoints) := by
  have hs : ∀ f ∈ sources fs, ((f.controller? r).map (·.2)).map (·.endpoints) =
      some f.endpoints := by
    intro f hf
    obtain ⟨e, es, he⟩ := List.exists_cons_of_ne_nil (ne_nil_of_mem_sources fs hf)
    rw [FileEndpoints.controller?, he]
    rfl
  have h := congrArg (List.map (Option.map (·.endpoints))) (controllers_ofFiles r fs)
  rw [List.map_map, List.map_map] at h
  have ht := h.trans (List.map_congr_left hs)
  refine (List.map_inj_right fun _ _ => Option.some.inj).mp ?_
  rw [List.map_map, List.map_map]
  exact ht

theorem endpoints_ofFiles : (ofFiles r fs).endpoints = (sources fs).flatMap (·.endpoints) := by
  rw [endpoints, List.flatMap_def, map_endpoints_controllers, List.flatMap_def]

theorem commands_ofFiles : (ofFiles r fs).commands = (traced fs).map (·.2) := by
  rw [commands, endpoints_ofFiles, traced, List.filter_flatMap, List.map_flatMap, List.map_flatMap]
  simp only [List.map_map]
  rfl

end Catalog

end EndpointCatalog
