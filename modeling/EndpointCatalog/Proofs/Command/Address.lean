import EndpointCatalog.Proofs.Command.Name
import EndpointCatalog.Request

namespace EndpointCatalog

open Text.Search

namespace Command

variable {cs before after : List Command} {c d : Command} {target : String} {args : List String}

theorem find?_eq_none_iff : find? cs target = none ↔ ∀ c ∈ cs, c.name ≠ target := by
  simp only [find?, List.find?_eq_none, beq_iff_eq, Ne]

theorem find?_eq_some_of_first (hb : ∀ b ∈ before, b.name ≠ target) (hc : c.name = target) :
    find? (before ++ c :: after) target = some c := by
  refine List.find?_eq_some_iff_append.mpr ⟨beq_iff_eq.mpr hc, before, after, rfl, fun b hm => ?_⟩
  rw [beq_eq_false_iff_ne.mpr (hb b hm), Bool.not_false]

theorem name_of_find? (h : find? cs target = some c) : c.name = target :=
  beq_iff_eq.mp (List.find?_some h :)

theorem resolve_eq_unknownCommand :
    resolve cs target args = .error (.unknownCommand target) ↔ ∀ c ∈ cs, c.name ≠ target := by
  rw [← find?_eq_none_iff, resolve]
  cases find? cs target with
  | none => exact iff_of_true rfl rfl
  | some c =>
    refine iff_of_false ?_ nofun
    dsimp only
    split <;> nofun

theorem resolve_of_find? (h : find? cs target = some c) :
    resolve cs target args =
      if args.length < c.parameters.length then
        .error (.missingArguments target c.parameters.length (", ".intercalate c.parameters)
          args.length)
      else .ok c := by
  rw [resolve, h]

theorem resolve_of_first (hb : ∀ b ∈ before, b.name ≠ target) (hc : c.name = target) :
    resolve (before ++ c :: after) target args =
      if args.length < c.parameters.length then
        .error (.missingArguments target c.parameters.length (", ".intercalate c.parameters)
          args.length)
      else .ok c :=
  resolve_of_find? (find?_eq_some_of_first hb hc)

/-- Whether neither the parts of a command nor its arguments have a slash. -/
def IsPlain (c : Command) (args : List String) : Prop :=
  '/' ∉ c.module.toList ∧ '/' ∉ c.controller.toList ∧ '/' ∉ c.command.toList ∧
    ∀ a ∈ args, '/' ∉ a.toList

def pieces (c : Command) (args : List String) : List (List Char) :=
  ([c.module, c.controller, c.command] ++ args).map String.toList

theorem pieces_ne_nil (c : Command) (args : List String) : c.pieces args ≠ [] :=
  List.cons_ne_nil _ _

theorem intercalate_pieces (c : Command) (args : List String) :
    ['/'].intercalate (c.pieces args) = c.name.toList ++ args.flatMap fun a => '/' :: a.toList := by
  rw [toList_name, pieces, List.cons_append, List.map_cons, intercalate_cons_eq_flatMap,
    List.flatMap_map]
  simp

theorem pieces_inj {args' : List String} :
    c.pieces args = d.pieces args' ↔ c.module = d.module ∧ c.controller = d.controller ∧
      c.command = d.command ∧ args = args' := by
  rw [pieces, pieces, List.map_inj_right fun _ _ => String.toList_inj.mp]
  simp

theorem IsPlain.slash_notMem (h : c.IsPlain args) : ∀ w ∈ c.pieces args, '/' ∉ w := by
  obtain ⟨hm, hc, hk, ha⟩ := h
  refine List.forall_mem_map.mpr (List.forall_mem_append.mpr ⟨?_, ha⟩)
  simp only [List.forall_mem_cons]
  exact ⟨hm, hc, hk, List.forall_mem_nil _⟩

end Command

namespace Connection

open Command

theorem toList_eq_trimSlashes (s : String) :
    ∃ n, s.toList = (trimSlashes s).toList ++ List.replicate n '/' := by
  have ht : ∀ c ∈ s.toList.reverse.takeWhile (· = '/'), c = '/' := fun c hc => by
    simpa using List.all_eq_true.mp List.all_takeWhile c hc
  refine ⟨(s.toList.reverse.takeWhile (· = '/')).length, ?_⟩
  rw [trimSlashes, String.toList_ofList, ← List.reverse_replicate, ← List.eq_replicate_of_mem ht,
    ← List.reverse_append, List.takeWhile_append_dropWhile, List.reverse_reverse]

theorem getLast?_trimSlashes (s : String) : (trimSlashes s).toList.getLast? ≠ some '/' := by
  intro h
  have hd := List.head?_dropWhile_not (· = '/') s.toList.reverse
  rw [trimSlashes, String.toList_ofList, List.getLast?_reverse] at h
  rw [h] at hd
  simp at hd

theorem intercalate_nil {α : Type} (ls : List (List α)) : [].intercalate ls = ls.flatten := by
  induction ls with
  | nil => rfl
  | cons l ls ih =>
    cases ls with
    | nil => rw [List.intercalate_singleton, List.flatten_singleton]
    | cons m ms =>
      rw [List.intercalate_cons_cons, ih, List.append_nil]
      rfl

theorem toList_url (k : Connection) (c : Command) (args : List String) :
    (k.url c args).toList = (trimSlashes k.base).toList ++ "/api/".toList ++ c.name.toList ++
      args.flatMap fun a => '/' :: a.toList := by
  have ha : ("".intercalate (args.map ("/" ++ ·))).toList =
      args.flatMap fun a => '/' :: a.toList := by
    have hs : String.toList ∘ ("/" ++ ·) = fun a => '/' :: a.toList :=
      funext fun a => String.toList_append
    rw [String.toList_intercalate, List.map_map, hs, List.flatMap_def]
    exact intercalate_nil _
  rw [url, String.toList_append, String.toList_append, String.toList_append, ha]

/-- The address of a plain command tells its parts and its arguments. -/
theorem url_eq_iff {k k' : Connection} (hk : k.base = k'.base) {c c' : Command}
    {args args' : List String} (h : c.IsPlain args) (h' : c'.IsPlain args') :
    k.url c args = k'.url c' args' ↔ c.module = c'.module ∧ c.controller = c'.controller ∧
      c.command = c'.command ∧ args = args' := by
  rw [← pieces_inj, ← String.toList_inj, toList_url, toList_url, hk, List.append_assoc,
    List.append_assoc _ c'.name.toList, List.append_cancel_left_eq, ← intercalate_pieces,
    ← intercalate_pieces]
  exact intercalate_inj (pieces_ne_nil c args) (pieces_ne_nil c' args') h.slash_notMem
    h'.slash_notMem

end Connection

end EndpointCatalog
