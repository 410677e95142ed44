import EndpointCatalog.Catalog.Survey

namespace EndpointCatalog

def Facts.withoutModel (f : Facts) : Facts := { f with modelFile? := none }

def Endpoint.withoutModel (e : Endpoint) : Endpoint := { e with modelFile? := none }

theorem Endpoint.map_withoutModel_sort (es : List Endpoint) :
    (sort es).map withoutModel = sort (es.map withoutModel) :=
  List.map_mergeSort fun _ _ _ _ => rfl

theorem Method.map_withoutModel_endpoints (d : Dialect) (f : Facts) (ms : List Method) :
    (endpoints d f ms).map Endpoint.withoutModel = endpoints d f.withoutModel ms := by
  induction ms with
  | nil => rfl
  | cons m ms ih =>
    rw [endpoints, endpoints, List.map_append, ih, endpoint?, endpoint?]
    cases d.commandOf? m.name <;> rfl

theorem Inherited.map_withoutModel_endpoints (t : Inherited) (f : Facts) (defined : List String)
    (marker : String) : (t.endpoints f defined marker).map Endpoint.withoutModel =
      t.endpoints f.withoutModel defined marker := by
  rw [endpoints, endpoints, List.map_map]
  rfl

namespace Survey

variable {v : Survey} {x y : List Char}

/-- Two sources with the same header of the class and the same actions have the same endpoints but
for the models. -/
theorem map_withoutModel_analyze (isFile : Path → Bool) (p : Path)
    (hc : Facts.classOf v.dialect x = Facts.classOf v.dialect y)
    (ha : ∀ f : Facts, f.actions v.dialect x = f.actions v.dialect y) :
    (v.analyze isFile p x).map Endpoint.withoutModel =
      (v.analyze isFile p y).map Endpoint.withoutModel := by
  have hf : (Facts.ofSource v.dialect isFile p x).withoutModel =
      (Facts.ofSource v.dialect isFile p y).withoutModel := by
    simp only [Facts.ofSource, Facts.withoutModel, hc]
  have hw : ∀ z, (v.analyze isFile p z).map Endpoint.withoutModel =
      let f := (Facts.ofSource v.dialect isFile p z).withoutModel
      let actions := f.actions v.dialect z
      if actions.isEmpty then []
      else Endpoint.sort (actions ++ v.inherited.endpoints f (actions.map (·.command))
        v.dialect.conventions.serviceMarker) := by
    intro z
    have hm : ((Facts.ofSource v.dialect isFile p z).actions v.dialect z).map Endpoint.withoutModel =
        (Facts.ofSource v.dialect isFile p z).withoutModel.actions v.dialect z :=
      Method.map_withoutModel_endpoints _ _ _
    rw [analyze]
    dsimp only
    rw [← hm, List.isEmpty_map, List.map_map]
    split
    · rfl
    · rw [Endpoint.map_withoutModel_sort, List.map_append, Inherited.map_withoutModel_endpoints]
      rfl
  rw [hw, hw, hf]
  dsimp only
  rw [ha]

theorem analyze_eq_nil (isFile : Path → Bool) (p : Path)
    (ha : ∀ f : Facts, f.actions v.dialect x = []) : v.analyze isFile p x = [] := by
  rw [analyze, ha]
  rfl

end Survey

end EndpointCatalog
