import EndpointCatalog.Catalog.Survey

namespace EndpointCatalog

/-- Whether an endpoint has all that its controller shares. -/
def Facts.Owns (f : Facts) (marker : String) (e : Endpoint) : Prop :=
  e = f.endpoint (f.kind marker) e.verb e.command e.parameters

theorem Facts.owns_endpoint (f : Facts) (marker : String) (verb : Verb) (command : String)
    (parameters : List String) :
    f.Owns marker (f.endpoint (f.kind marker) verb command parameters) := rfl

theorem Method.owns_of_mem_endpoints {d : Dialect} {f : Facts} {ms : List Method} {e : Endpoint}
    (h : e ∈ Method.endpoints d f ms) : f.Owns d.conventions.serviceMarker e := by
  induction ms with
  | nil => exact absurd h List.not_mem_nil
  | cons m ms ih =>
    rw [Method.endpoints, List.mem_append, Option.mem_toList, Method.endpoint?,
      Option.map_eq_some_iff] at h
    obtain ⟨w, -, rfl⟩ | h := h
    · exact Facts.owns_endpoint f _ _ _ _
    · exact ih h

theorem Inherited.owns_of_mem_endpoints {t : Inherited} {f : Facts} {defined : List String}
    {marker : String} {e : Endpoint} (h : e ∈ t.endpoints f defined marker) : f.Owns marker e := by
  obtain ⟨c, -, rfl⟩ := List.mem_map.mp h
  exact Facts.owns_endpoint f _ _ _ _

namespace Survey

def files (v : Survey) (isFile : Path → Bool) (sources : List (Path × List Char)) :
    List FileEndpoints :=
  sources.map fun f => ⟨f.1, v.analyze isFile f.1 f.2⟩

variable {v : Survey} {isFile : Path → Bool} {p : Path} {source : List Char} {e : Endpoint}

theorem mem_analyze :
    let f := Facts.ofSource v.dialect isFile p source
    let actions := f.actions v.dialect source
    e ∈ v.analyze isFile p source ↔ actions ≠ [] ∧ (e ∈ actions ∨
      e ∈ v.inherited.endpoints f (actions.map (·.command)) v.dialect.conventions.serviceMarker) := by
  intro f actions
  have hv : v.analyze isFile p source = if actions.isEmpty then [] else Endpoint.sort (actions ++
    v.inherited.endpoints f (actions.map (·.command)) v.dialect.conventions.serviceMarker) := rfl
  rw [hv]
  split
  · rename_i h
    rw [List.isEmpty_iff.mp h]
    simp
  · rename_i h
    rw [Endpoint.sort, List.mem_mergeSort, List.mem_append]
    exact (and_iff_right fun he => h (List.isEmpty_iff.mpr he)).symm

theorem mem_analyze_of_mem_actions
    (h : e ∈ (Facts.ofSource v.dialect isFile p source).actions v.dialect source) :
    e ∈ v.analyze isFile p source :=
  mem_analyze.mpr ⟨List.ne_nil_of_mem h, .inl h⟩

theorem owns_of_mem_analyze (h : e ∈ v.analyze isFile p source) :
    (Facts.ofSource v.dialect isFile p source).Owns v.dialect.conventions.serviceMarker e := by
  obtain ⟨-, h | h⟩ := mem_analyze.mp h
  · exact Method.owns_of_mem_endpoints h
  · exact Inherited.owns_of_mem_endpoints h

end Survey

end EndpointCatalog
