import EndpointCatalog.Catalog.Survey
import EndpointCatalog.Proofs.Controller.Actions
import EndpointCatalog.Proofs.Controller.Inherited
import EndpointCatalog.Proofs.Endpoint

namespace EndpointCatalog

open Text.Search

theorem Dialect.nodup_commandOf? (d : Dialect) (ns : List (List Char)) :
    (ns.filterMap d.commandOf?).Nodup ↔ (ns.filter (d.commandOf? · |>.isSome)).Nodup := by
  unfold List.Nodup
  rw [List.pairwise_filterMap, List.pairwise_filter]
  constructor
  · intro h
    refine h.imp fun {m n} hmn hm hn he => ?_
    obtain ⟨w, hw⟩ := Option.isSome_iff_exists.mp hm
    subst he
    exact hmn w hw w hw rfl
  · intro h
    refine h.imp fun {m n} hmn v hv w hw he => ?_
    subst he
    have hm := Dialect.eq_append_of_commandOf? hv
    have hn := Dialect.eq_append_of_commandOf? hw
    exact hmn (by rw [hv]; rfl) (by rw [hw]; rfl) (hm.trans hn.symm)

namespace Inherited

theorem commands_endpoints (t : Inherited) (f : Facts) (defined : List String) (marker : String) :
    (t.endpoints f defined marker).map (·.command) =
      ((t.commandsOf f.baseClass).map (·.1)).filter fun c => !defined.contains c := by
  rw [Inherited.endpoints, List.map_map, List.filter_map]
  rfl

end Inherited

namespace Survey

theorem nodup_analyze (s : Settings) (isFile : Path → Bool) (p : Path) (source : List Char) :
    let v := Survey.ofSettings s
    ((v.analyze isFile p source).map (·.command)).Nodup ↔
      ((Method.all v.dialect source).filterMap fun m => v.dialect.commandOf? m.name).Nodup := by
  intro v
  let f := Facts.ofSource v.dialect isFile p source
  let actions := f.actions v.dialect source
  let inherited := v.inherited.endpoints f (actions.map (·.command))
    v.dialect.conventions.serviceMarker
  have ha : actions.map (·.command) = ((Method.all v.dialect source).filterMap fun m =>
      v.dialect.commandOf? m.name).map String.ofList := Method.commands_endpoints _ _ _
  have hs : (actions.map (·.command)).Nodup ↔
      ((Method.all v.dialect source).filterMap fun m => v.dialect.commandOf? m.name).Nodup := by
    rw [ha]
    unfold List.Nodup
    rw [List.pairwise_map]
    simp only [ne_eq, String.ofList_inj]
  have hi : inherited.map (·.command) = ((v.inherited.commandsOf f.baseClass).map (·.1)).filter
      fun c => !(actions.map (·.command)).contains c := Inherited.commands_endpoints _ _ _ _
  have hv : v.analyze isFile p source =
      if actions.isEmpty then [] else Endpoint.sort (actions ++ inherited) := rfl
  rw [← hs, hv]
  cases he : actions.isEmpty with
  | true =>
    rw [List.isEmpty_iff.mp he]
    rfl
  | false =>
    have hp := ((Endpoint.sort_perm (actions ++ inherited)).map (·.command)).nodup_iff
    rw [if_neg Bool.false_ne_true, hp, List.map_append, List.nodup_append, hi]
    refine ⟨fun h => h.1, fun h => ⟨h, ?_, fun c hc d hd hcd => ?_⟩⟩
    · exact (Inherited.nodup_commandsOf s.inherited f.baseClass).filter _
    · have hn := (List.mem_filter.mp hd).2
      rw [← hcd, List.contains_iff_mem.mpr hc] at hn
      cases hn

/-- The commands of a source are distinct exactly when no two of its actions have one name. -/
theorem nodup_commands_iff (s : Settings) (isFile : Path → Bool) (p : Path) (source : List Char) :
    let v := Survey.ofSettings s
    ((v.analyze isFile p source).map (·.command)).Nodup ↔
      (((Method.all v.dialect source).map (·.name)).filter
        (v.dialect.commandOf? · |>.isSome)).Nodup := by
  intro v
  refine (nodup_analyze s isFile p source).trans ?_
  rw [← Dialect.nodup_commandOf?, List.filterMap_map]
  rfl

/-- A method that is commented out counts like any other. -/
theorem not_nodup_commands_of_comment :
    let top := "<?php\nclass BarController extends ApiControllerBase\n\x7b\n"
    let method := "    public function getAction()\n    \x7b\n    \x7d\n"
    let source := top ++ "    /*\n" ++ method ++ "    */\n" ++ method ++ "\x7d\n"
    ¬ (((Survey.ofSettings {}).analyze (fun _ => false)
      ⟨"mvc/app/controllers/OPNsense/Foo/Api/BarController.php"⟩ source.toList).map
        (·.command)).Nodup := by
  intro top method source h
  have ht : top.toList = _ := String.toList_ofList
  have hm : method.toList = _ := String.toList_ofList
  have hn := (nodup_analyze {} _ _ _).mp h
  simp only [source, String.toList_append, ht, hm] at hn
  revert hn
  decide +kernel

end Survey

end EndpointCatalog
