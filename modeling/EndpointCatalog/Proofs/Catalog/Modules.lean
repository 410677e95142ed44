import EndpointCatalog.Proofs.Catalog.Sources
import EndpointCatalog.Proofs.Path.Order

namespace EndpointCatalog

namespace FileEndpoints

def module? (f : FileEndpoints) : Option String := f.endpoints.head?.map (·.module)

/-- The controller of a file, if it goes to the module `m`. -/
def controllerIn? (r : Repository) (m : String) (f : FileEndpoints) : Option Controller :=
  ((f.controller? r).filter (·.1 == m)).map (·.2)

variable {r : Repository} {m : String} {f : FileEndpoints}

theorem module?_eq_map_controller? (r : Repository) (f : FileEndpoints) :
    f.module? = (f.controller? r).map (·.1) := by
  rw [module?, controller?]
  cases f.endpoints <;> rfl

theorem exists_controller?_of_module? (r : Repository) (h : f.module? = some m) :
    ∃ c, f.controller? r = some (m, c) ∧ c.endpoints = f.endpoints := by
  obtain ⟨e, he, rfl⟩ := Option.map_eq_some_iff.mp h
  exact ⟨_, congrArg (Option.map _) he, rfl⟩

theorem controllerIn?_of_ne (h : f.module? ≠ some m) : f.controllerIn? r m = none := by
  rw [controllerIn?, Option.map_eq_none_iff, Option.filter_eq_none_iff]
  intro c hc he
  refine h ?_
  rw [module?_eq_map_controller? r, hc, Option.map_some, beq_iff_eq.mp he]

theorem map_filterMap_controllerIn? (r : Repository) (m : String) (fs : List FileEndpoints) :
    (fs.filterMap (·.controllerIn? r m)).map some =
      (fs.filter (·.module? == some m)).map fun f => (f.controller? r).map (·.2) := by
  induction fs with
  | nil => rfl
  | cons f fs ih =>
    rw [List.filter_cons]
    by_cases h : f.module? = some m
    · obtain ⟨c, hc, -⟩ := exists_controller?_of_module? r h
      have hs : f.controllerIn? r m = some c := by
        rw [controllerIn?, hc, Option.filter_some, if_pos (beq_self_eq_true m), Option.map_some]
      rw [List.filterMap_cons_some hs, if_pos (beq_iff_eq.mpr h), List.map_cons, List.map_cons,
        ih, hc, Option.map_some]
    · rw [List.filterMap_cons_none (controllerIn?_of_ne h), if_neg (mt beq_iff_eq.mp h), ih]

end FileEndpoints

namespace Catalog

open FileEndpoints

/-- Whether a catalog has each of some files once, with all of its endpoints, in its module and at
its place there. -/
structure Comprises (c : Catalog) (r : Repository) (fs : List FileEndpoints) : Prop where
  sorted : c.modules.IsSorted
  mem_keys : ∀ m, m ∈ c.modules.keys ↔ ∃ f ∈ fs, f.module? = some m
  under : ∀ m, ∃ files, Path.IsOrdering (·.path) (fs.filter (·.module? == some m)) files ∧
    (c.modules.under m).map some = files.map (fun f => (f.controller? r).map (·.2)) ∧
    (c.modules.under m).map (·.endpoints) = files.map (·.endpoints)
  endpoints : c.endpoints.Perm (fs.flatMap (·.endpoints))

variable (r : Repository) (fs : List FileEndpoints)

theorem mem_keys_ofFiles {m : String} :
    m ∈ (ofFiles r fs).modules.keys ↔ ∃ f ∈ fs, f.module? = some m := by
  refine Groups.mem_keys_ofPairs.trans ?_
  have hf : ∀ f : FileEndpoints, (f.controller? r).map (·.1) = f.module? := fun f =>
    (module?_eq_map_controller? r f).symm
  simp only [List.map_filterMap, hf, List.mem_filterMap, (sort_perm fs).mem_iff]

theorem under_ofFiles (m : String) :
    (ofFiles r fs).modules.under m = (sort fs).filterMap (·.controllerIn? r m) := by
  refine (Groups.under_ofPairs _ m).trans ?_
  rw [List.filter_filterMap, List.map_filterMap]
  rfl

theorem endpoints_ofFiles_perm : (ofFiles r fs).endpoints.Perm (fs.flatMap (·.endpoints)) := by
  rw [endpoints_ofFiles]
  refine ((sources_perm fs).flatMap_right _).trans (List.Perm.of_eq ?_)
  induction fs with
  | nil => rfl
  | cons f fs ih =>
    rw [List.flatMap_cons, List.filter_cons]
    split
    · rw [List.flatMap_cons, ih]
    · rename_i h
      have he : f.endpoints = [] := by simpa using h
      rw [ih, he, List.nil_append]

/-- The files of a module are put into the order of their paths. -/
theorem under_ofFiles_ordering (m : String) :
    ∃ files, Path.IsOrdering (·.path) (fs.filter (·.module? == some m)) files ∧
      ((ofFiles r fs).modules.under m).map some =
        files.map (fun f => (f.controller? r).map (·.2)) ∧
      ((ofFiles r fs).modules.under m).map (·.endpoints) = files.map (·.endpoints) := by
  have hs := map_filterMap_controllerIn? r m (sort fs)
  rw [← under_ofFiles] at hs
  refine ⟨(sort fs).filter (·.module? == some m), ?_, hs, ?_⟩
  · exact (Path.isOrdering_sortBy (·.path) fs).filter _
  · refine (List.map_inj_right fun _ _ => Option.some.inj).mp ?_
    have he := congrArg (List.map (Option.map (·.endpoints))) hs
    rw [List.map_map, List.map_map] at he
    rw [List.map_map, List.map_map]
    refine he.trans (List.map_congr_left fun f hf => ?_)
    obtain ⟨c, hc, he⟩ := exists_controller?_of_module? r (beq_iff_eq.mp (List.mem_filter.mp hf).2)
    show ((f.controller? r).map (·.2)).map (·.endpoints) = some f.endpoints
    rw [hc, ← he]
    rfl

theorem exists_under_ofFiles_append_cons (before : List FileEndpoints) (f : FileEndpoints)
    (after : List FileEndpoints) (m : String) :
    ∃ x y, (ofFiles r (before ++ after)).modules.under m = x ++ y ∧
      (ofFiles r (before ++ f :: after)).modules.under m =
        x ++ (f.controllerIn? r m).toList ++ y := by
  obtain ⟨x, y, hf, hs⟩ := Path.exists_sortBy_append_cons FileEndpoints.path before f after
  have hf : sort (before ++ f :: after) = x ++ f :: y := hf
  have hs : sort (before ++ after) = x ++ y := hs
  refine ⟨x.filterMap (·.controllerIn? r m), y.filterMap (·.controllerIn? r m), ?_, ?_⟩
  · rw [under_ofFiles, hs, List.filterMap_append]
  · rw [under_ofFiles, hf, List.filterMap_append, List.filterMap_cons, List.append_assoc]
    cases f.controllerIn? r m <;> rfl

/-- A catalog has each file with an endpoint once and nothing else, and whatever takes the place of
a file, or nothing, the controllers of the other files stay as they are and in their order. -/
theorem comprises_ofFiles :
    (ofFiles r fs).Comprises r fs ∧
    ∀ before f after m, ∃ x y, (ofFiles r (before ++ after)).modules.under m = x ++ y ∧
      (ofFiles r (before ++ f :: after)).modules.under m =
        x ++ (f.controllerIn? r m).toList ++ y := by
  refine ⟨?_, exists_under_ofFiles_append_cons r⟩
  exact {
    sorted := Groups.isSorted_ofPairs _
    mem_keys := fun m => mem_keys_ofFiles r fs
    under := under_ofFiles_ordering r fs
    endpoints := endpoints_ofFiles_perm r fs }

end Catalog

end EndpointCatalog
