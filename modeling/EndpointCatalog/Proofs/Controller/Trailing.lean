import EndpointCatalog.Proofs.Controller.Layout

namespace EndpointCatalog.Written

open Dialect Text.Search

theorem endpoint_inj {f : Facts} {k : Kind} {v v' : Verb} {w : String} {ps ps' : List String} :
    f.endpoint k v w ps = f.endpoint k v' w ps' ↔ v = v' ∧ ps = ps' := by
  simp [Facts.endpoint]

/-- Where two ways to read the elements of a list read the same ones, they give the same list only
if they agree on each. -/
theorem filterMap_eq_filterMap_iff {α β : Type} {g g' : α → Option β} {xs : List α}
    (h : ∀ x ∈ xs, (g x).isSome = (g' x).isSome) :
    xs.filterMap g = xs.filterMap g' ↔ ∀ x ∈ xs, g x = g' x := by
  induction xs with
  | nil => exact iff_of_true rfl (List.forall_mem_nil _)
  | cons x xs ih =>
    obtain ⟨hx, hxs⟩ := List.forall_mem_cons.mp h
    rw [List.forall_mem_cons, ← ih hxs]
    cases hg : g x with
    | none =>
      have hg' : g' x = none := by rwa [hg, eq_comm, Option.isSome_none, Option.isSome_eq_false_iff,
        Option.isNone_iff_eq_none] at hx
      simp only [List.filterMap_cons, hg, hg', true_and]
    | some y =>
      rw [hg, Option.isSome_some, eq_comm, Option.isSome_iff_exists] at hx
      obtain ⟨y', hg'⟩ := hx
      simp only [List.filterMap_cons, hg, hg', List.cons.injEq, Option.some.injEq]

namespace Member

/-- The endpoint that a method is meant to be. -/
def meant? (f : Facts) (m : Member) : Option Endpoint :=
  ((ofConventions {}).commandOf? m.name).map fun w =>
    f.endpoint (f.kind "service") ((ofConventions {}).verbOf m.after) (String.ofList w)
      ((Controller.Parameter.names m.parameters).map String.ofList)

/-- Whether what is taken for the parameters has their names, and what is taken for the body its
verb. -/
def IsClear (m : Member) : Prop :=
  Controller.Parameter.names m.captured = Controller.Parameter.names m.parameters ∧
    (ofConventions {}).verbOf m.seen = (ofConventions {}).verbOf m.after

theorem isClear_of_notMem {m : Member} (h : ')' ∉ m.trailer) : m.IsClear := by
  rw [IsClear, m.captured_of_notMem h, m.seen_of_notMem h]
  exact ⟨rfl, rfl⟩

theorem isSome_found? (f : Facts) (m : Member) : (m.found? f).isSome = (m.meant? f).isSome := by
  rw [found?, meant?, Option.isSome_map, Option.isSome_map]

theorem found?_eq_meant?_iff (f : Facts) (m : Member) :
    m.found? f = m.meant? f ↔ (((ofConventions {}).commandOf? m.name).isSome → m.IsClear) := by
  rw [found?, meant?]
  cases (ofConventions {}).commandOf? m.name with
  | none => exact iff_of_true rfl fun h => absurd h Bool.false_ne_true
  | some w =>
    rw [Option.map_some, Option.map_some, Option.some_inj, endpoint_inj,
      List.map_inj_right fun _ _ h => String.ofList_injective h, IsClear]
    exact ⟨fun h _ => h.symm, fun h => (h rfl).symm⟩

end Member

/-- The actions of a source have what is found for their parameters and bodies, which is what is
meant exactly if each method that is an action is clear. -/
theorem actions_eq_meant_iff (f : Facts) (s : Source) :
    f.actions (ofConventions {}) s.text = s.members.filterMap (·.found? f) ∧
      (f.actions (ofConventions {}) s.text = s.members.filterMap (·.meant? f) ↔
        ∀ m ∈ s.members, ((ofConventions {}).commandOf? m.name).isSome → m.IsClear) := by
  rw [actions_source]
  refine ⟨rfl, ?_⟩
  rw [filterMap_eq_filterMap_iff fun m _ => m.isSome_found? f]
  simp only [Member.found?_eq_meant?_iff]

/-- A body on the line of its header loses the call that tells its verb. -/
theorem verb_of_body_on_one_line :
    let header := "<?php\nclass AliasController extends ApiMutableModelControllerBase\n\x7b\n" ++
      "    public function delItemAction($id)"
    let body := " \x7b return $this->delBase('x', $id); \x7d\n\x7d\n"
    (Facts.actions {} (ofConventions {}) (header ++ body).toList).map (·.verb) = [.get] ∧
      (ofConventions {}).verbOf body.toList = .post := by
  intro header body
  have hb : body.toList = _ := String.toList_ofList
  simp only [header, String.toList_append, hb]
  decide +kernel

end EndpointCatalog.Written
