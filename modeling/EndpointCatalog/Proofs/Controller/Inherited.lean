import EndpointCatalog.Controller.Inherited
import EndpointCatalog.Proofs.Overwriting
import Mathlib.Data.List.Nodup

namespace EndpointCatalog.Inherited

open Overwriting

theorem setVerb_eq_upsert (command : String) (verb : Verb) (cs : List (String × Verb)) :
    setVerb command verb cs = upsert command (fun _ => verb) cs := by
  induction cs with
  | nil => rfl
  | cons c cs ih => rw [setVerb, upsert, ih]

theorem mem_setVerb {command d : String} {verb : Verb} {cs : List (String × Verb)} :
    d ∈ (setVerb command verb cs).map (·.1) ↔ d = command ∨ d ∈ cs.map (·.1) := by
  rw [setVerb_eq_upsert]
  by_cases h : command ∈ cs.map (·.1)
  · rw [keys_upsert_of_mem h]
    refine (or_iff_right_of_imp ?_).symm
    rintro rfl
    exact h
  · rw [keys_upsert_of_notMem h, List.mem_append, List.mem_singleton, or_comm]

theorem nodup_setVerb (command : String) (verb : Verb) {cs : List (String × Verb)}
    (h : (cs.map (·.1)).Nodup) : ((setVerb command verb cs).map (·.1)).Nodup := by
  rw [setVerb_eq_upsert]
  by_cases hc : command ∈ cs.map (·.1)
  · rw [keys_upsert_of_mem hc]
    exact h
  · rw [keys_upsert_of_notMem hc, ← List.concat_eq_append]
    exact h.concat hc

/-- Whether each class of a table has each of its commands once. -/
def IsTable (rows : List (String × List (String × Verb))) : Prop :=
  ∀ r ∈ rows, (r.2.map (·.1)).Nodup

theorem isTable_insert (e : InheritedEntry) {rows : List (String × List (String × Verb))}
    (h : IsTable rows) : IsTable (insert e rows) := by
  induction rows with
  | nil =>
    intro r hr
    obtain rfl := List.mem_singleton.mp hr
    exact List.nodup_cons.mpr ⟨List.not_mem_nil, List.nodup_nil⟩
  | cons row rows ih =>
    obtain ⟨b, cs⟩ := row
    have hb : (cs.map (·.1)).Nodup := h (b, cs) List.mem_cons_self
    have hrows : IsTable rows := fun r hr => h r (List.mem_cons_of_mem _ hr)
    rw [insert]
    split
    · intro r hr
      obtain rfl | hr := List.mem_cons.mp hr
      · exact nodup_setVerb e.command e.verb hb
      · exact hrows r hr
    · intro r hr
      obtain rfl | hr := List.mem_cons.mp hr
      · exact hb
      · exact ih hrows r hr

theorem isTable_withEntries (es : List InheritedEntry) {t : Inherited} (h : IsTable t.table) :
    IsTable (t.withEntries es).table := by
  rw [withEntries]
  generalize t.table = rows at h
  induction es generalizing rows with
  | nil => exact h
  | cons e es ih => exact ih _ (isTable_insert e h)

theorem forall_insert {P : String → Prop} {e : InheritedEntry} (he : P e.command)
    {rows : List (String × List (String × Verb))} (h : ∀ r ∈ rows, ∀ d ∈ r.2.map (·.1), P d) :
    ∀ r ∈ insert e rows, ∀ d ∈ r.2.map (·.1), P d := by
  have hs : ∀ cs : List (String × Verb), (∀ d ∈ cs.map (·.1), P d) →
      ∀ d ∈ (setVerb e.command e.verb cs).map (·.1), P d := by
    intro cs hcs d hd
    obtain rfl | hd := mem_setVerb.mp hd
    · exact he
    · exact hcs d hd
  induction rows with
  | nil =>
    refine List.forall_mem_cons.mpr ⟨?_, h⟩
    exact hs [] fun _ hd => absurd hd List.not_mem_nil
  | cons row rows ih =>
    obtain ⟨b, cs⟩ := row
    obtain ⟨hcs, hrows⟩ := List.forall_mem_cons.mp h
    rw [insert]
    split
    · exact List.forall_mem_cons.mpr ⟨hs cs hcs, hrows⟩
    · exact List.forall_mem_cons.mpr ⟨hcs, ih hrows⟩

theorem forall_commandsOf {P : String → Prop} {es : List InheritedEntry} {t : Inherited}
    (he : ∀ e ∈ es, P e.command) (ht : ∀ r ∈ t.table, ∀ d ∈ r.2.map (·.1), P d) (b : String) :
    ∀ d ∈ ((t.withEntries es).commandsOf b).map (·.1), P d := by
  have hw : ∀ r ∈ (t.withEntries es).table, ∀ d ∈ r.2.map (·.1), P d := by
    rw [withEntries]
    generalize t.table = rows at ht
    induction es generalizing rows with
    | nil => exact ht
    | cons e es ih =>
      obtain ⟨he, hes⟩ := List.forall_mem_cons.mp he
      exact ih hes _ (forall_insert he ht)
  rw [commandsOf]
  cases hl : (t.withEntries es).table.lookup b with
  | none => exact fun d hd => absurd hd List.not_mem_nil
  | some cs =>
    obtain ⟨l, r, hr, -⟩ := List.lookup_eq_some_iff.mp hl
    exact hw (b, cs) (by rw [hr]; simp)

theorem isTable_usual : IsTable usual.table := by
  intro r hr
  simp only [usual, List.mem_cons, List.not_mem_nil, or_false] at hr
  obtain rfl | rfl := hr <;> decide

theorem nodup_of_isTable {t : Inherited} (h : IsTable t.table) (b : String) :
    ((t.commandsOf b).map (·.1)).Nodup := by
  rw [commandsOf]
  cases hl : t.table.lookup b with
  | none => exact List.nodup_nil
  | some cs =>
    obtain ⟨l, r, he, -⟩ := List.lookup_eq_some_iff.mp hl
    exact h (b, cs) (by rw [he]; simp)

theorem nodup_commandsOf (es : List InheritedEntry) (b : String) :
    (((usual.withEntries es).commandsOf b).map (·.1)).Nodup :=
  nodup_of_isTable (isTable_withEntries es isTable_usual) b

end EndpointCatalog.Inherited
