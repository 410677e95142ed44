import EndpointCatalog.Controller.Action
import EndpointCatalog.Proofs.Pattern.Captures
import EndpointCatalog.Proofs.Pattern.Runs
import EndpointCatalog.Proofs.Text.Search

namespace EndpointCatalog

open Text.Search

theorem Dialect.eq_append_of_commandOf? {d : Dialect} {n w : List Char}
    (h : d.commandOf? n = some w) : n = w ++ d.conventions.actionSuffix.toList := by
  rw [Dialect.commandOf?] at h
  exact until?_eq_some.mp (Option.filter_eq_some_iff.mp h).1

theorem Method.commands_endpoints (d : Dialect) (f : Facts) (ms : List Method) :
    (Method.endpoints d f ms).map (·.command) =
      (ms.filterMap fun m => d.commandOf? m.name).map String.ofList := by
  induction ms with
  | nil => rfl
  | cons m ms ih =>
    rw [Method.endpoints, List.map_append, ih, Method.endpoint?, List.filterMap_cons]
    cases d.commandOf? m.name with
    | none => rfl
    | some w => rfl

namespace Method

theorem isWord_name {k : Conventions} {source : List Char} {m : Method}
    (h : m ∈ Method.all (.ofConventions k) source) : ∀ c ∈ m.name, Text.Word.isWord c = true := by
  obtain ⟨t, ht, hm⟩ := List.mem_filterMap.mp h
  obtain ⟨w, hw, rfl⟩ := Option.map_eq_some_iff.mp hm
  have hr := (Pattern.mem_runs_of_mem_findAllFrom t ht).1
  obtain ⟨q, hq, a, s, hs, rfl⟩ := Pattern.exists_of_group? hr hw
  have hg : ∀ g ∈ Dialect.Usual.methodHeader.subgroups, g.1 = 3 → g.2 = .plus true (.one .word) := by
    decide
  have hp : q = .plus true (.one .word) := hg _ hq rfl
  rw [hp] at hs
  exact Pattern.contains_of_mem_runs_plus_one _ _ hs

theorem isWord_command {k : Conventions} {source : List Char} {f : Facts} {e : Endpoint}
    (h : e ∈ f.actions (.ofConventions k) source) :
    ∀ c ∈ e.command.toList, Text.Word.isWord c = true := by
  have he := List.mem_map_of_mem (f := (·.command)) h
  rw [Facts.actions, commands_endpoints] at he
  obtain ⟨w, hw, hc⟩ := List.mem_map.mp he
  obtain ⟨m, hm, hw⟩ := List.mem_filterMap.mp hw
  intro c hmem
  rw [← hc, String.toList_ofList] at hmem
  apply isWord_name hm
  rw [Dialect.eq_append_of_commandOf? hw]
  exact List.mem_append_left _ hmem

end Method

end EndpointCatalog
