import EndpointCatalog.Proofs.Catalog.Uniform
import EndpointCatalog.Proofs.Controller.Entries
import EndpointCatalog.Proofs.Survey.Distinct
import EndpointCatalog.Proofs.Survey.Extraction

namespace EndpointCatalog

open Text.Search

namespace Inherited

theorem filter_eq_lookup {cs : List (String × Verb)} (h : (cs.map (·.1)).Nodup) (command : String) :
    cs.filter (·.1 = command) = ((cs.lookup command).map fun verb => (command, verb)).toList := by
  induction cs with
  | nil => rfl
  | cons c cs ih =>
    obtain ⟨d, verb⟩ := c
    obtain ⟨hd, hcs⟩ := List.nodup_cons.mp h
    rw [List.filter_cons, List.lookup_cons]
    by_cases he : d = command
    · subst he
      have hn : cs.filter (·.1 = d) = [] := List.filter_eq_nil_iff.mpr fun c hc hcd =>
        hd (List.mem_map.mpr ⟨c, hc, of_decide_eq_true hcd⟩)
      rw [if_pos (decide_eq_true rfl), hn, beq_self_eq_true]
      rfl
    · rw [if_neg (mt of_decide_eq_true he), ih hcs, beq_eq_false_iff_ne.mpr (Ne.symm he)]

theorem filter_endpoints {t : Inherited} {f : Facts} (h : ((t.commandsOf f.baseClass).map (·.1)).Nodup)
    (defined : List String) (marker command : String) :
    (t.endpoints f defined marker).filter (·.command = command) =
      if command ∈ defined then []
      else (((t.commandsOf f.baseClass).lookup command).map fun verb =>
        f.endpoint (f.kind marker) verb command []).toList := by
  have hf : (t.endpoints f defined marker).filter (·.command = command) =
      (((t.commandsOf f.baseClass).filter (·.1 = command)).filter
        fun c => !defined.contains c.1).map fun c => f.endpoint (f.kind marker) c.2 c.1 [] := by
    rw [endpoints, List.filter_map, List.filter_comm]
    rfl
  rw [hf, filter_eq_lookup h]
  cases (t.commandsOf f.baseClass).lookup command with
  | none => exact (ite_self _).symm
  | some verb =>
    rw [Option.map_some, Option.toList_some, List.filter_singleton]
    by_cases hd : command ∈ defined
    · rw [if_pos hd, List.contains_iff_mem.mpr hd]
      rfl
    · rw [if_neg hd, Bool.eq_false_iff.mpr (mt List.contains_iff_mem.mp hd)]
      rfl

end Inherited

namespace Survey

/-- A source without actions gives nothing. Otherwise its endpoints are in the order of the commands,
those of one command are all actions of that command as they come in the source, and only where
there is none, the one that is named for the base class, with the verb it was given last. -/
theorem filter_analyze (s : Settings) (isFile : Path → Bool) (p : Path) (source : List Char) :
    let v := Survey.ofSettings s
    let f := Facts.ofSource v.dialect isFile p source
    let actions := f.actions v.dialect source
    let result := v.analyze isFile p source
    let verb? := Inherited.lastVerb? (Inherited.usualEntries ++ s.inherited) f.baseClass
    (result = [] ↔ actions = []) ∧
    result.Pairwise (fun a b => Text.Bytes.encode a.command ≤ Text.Bytes.encode b.command) ∧
    ∀ command, result.filter (·.command = command) =
      if actions = [] then []
      else if command ∈ actions.map (·.command) then actions.filter (·.command = command)
      else ((verb? command).map fun verb =>
        { verb, command, parameters := [], module := f.module, controller := f.controller
          isAbstract := f.isAbstract, baseClass := f.baseClass, fileName := f.fileName
          modelFile? := f.modelFile?
          kind :=
            if f.isAbstract then .abstract
            else if s.conventions.serviceMarker.toList <:+: f.controller.toList then .service
            else .resources }).toList := by
  intro v f actions result verb?
  have hn : ((v.inherited.commandsOf f.baseClass).map (·.1)).Nodup :=
    Inherited.nodup_commandsOf s.inherited f.baseClass
  have hr : result = if actions.isEmpty then [] else Endpoint.sort (actions ++
      v.inherited.endpoints f (actions.map (·.command)) s.conventions.serviceMarker) := rfl
  refine ⟨?_, (pairwise_analyze v).imp Text.Bytes.encode_le_encode.mpr, fun command => ?_⟩
  · constructor
    · intro h
      by_contra ha
      obtain ⟨e, he⟩ := List.exists_mem_of_ne_nil actions ha
      have hm : e ∈ result := mem_analyze_of_mem_actions he
      rw [h] at hm
      exact List.not_mem_nil hm
    · intro ha
      rw [hr, ha]
      rfl
  · by_cases ha : actions = []
    · rw [hr, if_pos (List.isEmpty_iff.mpr ha), if_pos ha]
      rfl
    -- the sort is stable, so each command can be looked at before it
    · rw [hr, if_neg (mt List.isEmpty_iff.mp ha), if_neg ha, Endpoint.filter_sort,
        List.filter_append, Inherited.filter_endpoints hn]
      by_cases hc : command ∈ actions.map (·.command)
      · rw [if_pos hc, if_pos hc, List.append_nil]
      · have hf : actions.filter (·.command = command) = [] :=
          List.filter_eq_nil_iff.mpr fun e he hec =>
            hc (List.mem_map.mpr ⟨e, he, of_decide_eq_true hec⟩)
        have hv : (v.inherited.commandsOf f.baseClass).lookup command = verb? command :=
          Inherited.lookup_commandsOf s.inherited f.baseClass command
        rw [if_neg hc, if_neg hc, hf, List.nil_append, hv]
        simp only [Facts.endpoint, Facts.kind, Kind.classify, holds, contains_iff]

/-- The class answers `get` itself, so of the commands of its base class only `set` is inherited, with
the verb that an entry gives it, and `export`, which an entry adds. -/
theorem filter_analyze_inherited :
    let b := "ApiMutableModelControllerBase"
    let entries : List InheritedEntry := [⟨b, "set", .any⟩, ⟨b, "export", .get⟩, ⟨b, "export", .post⟩]
    let es := (Survey.ofSettings { inherited := entries }).analyze (fun _ => false) aliasPath
      aliasClass.text
    es.filter (·.command = "get") = [aliasEndpoint .get "get" []] ∧
      es.filter (·.command = "set") = [aliasEndpoint .any "set" []] ∧
      es.filter (·.command = "export") = [aliasEndpoint .post "export" []] ∧
      es.filter (·.command = "del") = [] := by
  intro b entries es
  let f : Facts := ⟨"firewall", "alias", "AliasController.php", b, false, none⟩
  have hk : aliasClass.facts aliasPath none = f := by decide +kernel
  have hf : Facts.ofSource (.ofConventions {}) (fun _ => false) aliasPath aliasClass.text = f := by
    rw [ofSource_text, modelOf?_of_no_file, hk]
  have ha : f.actions (.ofConventions {}) aliasClass.text = aliasClass.own aliasPath none := by
    rw [← hk, actions_text]
  obtain ⟨-, -, h⟩ := filter_analyze { inherited := entries } (fun _ => false) aliasPath
    aliasClass.text
  simp only [Survey.ofSettings, hf, ha, own_aliasClass] at h
  refine ⟨?_, ?_, ?_, ?_⟩
  · exact (h "get").trans (by decide)
  · exact (h "set").trans (by decide)
  · exact (h "export").trans (by decide)
  · exact (h "del").trans (by decide)

end Survey

end EndpointCatalog
