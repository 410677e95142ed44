import Mathlib.Logic.Basic

namespace EndpointCatalog.Overwriting

/-- A fold whose steps either write a value or leave it ends with the value written last. -/
theorem get_foldl {σ α β : Type} {step : σ → α → σ} (get : σ → Option β) {p : α → Bool} {g : α → β}
    (h : ∀ s a, get (step s a) = if p a then some (g a) else get s) (as : List α) (s : σ) :
    get (as.foldl step s) = ((as.filter p).getLast?.map g).or (get s) := by
  induction as generalizing s with
  | nil => rfl
  | cons a as ih =>
    rw [List.foldl_cons, ih, h, List.filter_cons]
    split
    · rw [List.getLast?_cons]
      cases (as.filter p).getLast? <;> rfl
    · rfl

section

variable {α : Type} {k : String} {f : Option α → α} {rows : List (String × α)}

theorem lookup_entry (k : String) (a : α) (rows : List (String × α)) (m : String) :
    ((k, a) :: rows).lookup m = if m = k then some a else rows.lookup m := by
  by_cases h : m = k
  · subst h
    rw [List.lookup_cons_self, if_pos rfl]
  · rw [List.lookup_cons, beq_eq_false_iff_ne.mpr h, if_neg h]

/-- Changes the value of a key where it stands, or adds the key at the end. -/
def upsert (k : String) (f : Option α → α) : List (String × α) → List (String × α)
  | [] => [(k, f none)]
  | (m, a) :: rows => if m = k then (m, f (some a)) :: rows else (m, a) :: upsert k f rows

theorem lookup_upsert (k : String) (f : Option α → α) (rows : List (String × α)) (m : String) :
    (upsert k f rows).lookup m = if m = k then some (f (rows.lookup k)) else rows.lookup m := by
  induction rows with
  | nil => exact lookup_entry k (f none) [] m
  | cons row rows ih =>
    obtain ⟨d, a⟩ := row
    rw [upsert]
    by_cases hd : d = k
    · subst hd
      rw [if_pos rfl, lookup_entry, lookup_entry, lookup_entry, if_pos rfl]
      split <;> rfl
    · rw [if_neg hd, lookup_entry, ih, lookup_entry, lookup_entry, if_neg (Ne.symm hd)]
      exact ite_ite_comm _ _ _ _ fun h h' => hd (h.symm.trans h')

theorem keys_upsert_of_mem (h : k ∈ rows.map (·.1)) :
    (upsert k f rows).map (·.1) = rows.map (·.1) := by
  induction rows with
  | nil => exact absurd h List.not_mem_nil
  | cons row rows ih =>
    obtain ⟨d, a⟩ := row
    rw [upsert]
    split
    · rfl
    · rename_i hd
      obtain rfl | h := List.mem_cons.mp h
      · exact absurd rfl hd
      · rw [List.map_cons, List.map_cons, ih h]

theorem keys_upsert_of_notMem (h : k ∉ rows.map (·.1)) :
    (upsert k f rows).map (·.1) = rows.map (·.1) ++ [k] := by
  induction rows with
  | nil => rfl
  | cons row rows ih =>
    obtain ⟨d, a⟩ := row
    have hd : d ≠ k := (List.ne_of_not_mem_cons h).symm
    rw [upsert, if_neg hd, List.map_cons, List.map_cons, ih (List.not_mem_of_not_mem_cons h),
      List.cons_append]

end

theorem eraseDups_of_nodup {cs : List String} (h : cs.Nodup) : cs.eraseDups = cs := by
  induction cs with
  | nil => rfl
  | cons c cs ih =>
    obtain ⟨hc, hcs⟩ := List.nodup_cons.mp h
    have hf : cs.filter (fun d => !d == c) = cs := by
      refine List.filter_eq_self.mpr fun d hd => ?_
      rw [Bool.not_eq_true', beq_eq_false_iff_ne]
      rintro rfl
      exact hc hd
    rw [List.eraseDups_cons, hf, ih hcs]

theorem eraseDups_append_cons_of_mem {c : String} {cs : List String} (h : c ∈ cs)
    (ds : List String) : (cs ++ c :: ds).eraseDups = (cs ++ ds).eraseDups := by
  rw [List.eraseDups_append, List.eraseDups_append, List.cons_removeAll,
    List.contains_iff_mem.mpr h]
  rfl

end EndpointCatalog.Overwriting
