import EndpointCatalog.Proofs.Pattern.Ways

namespace EndpointCatalog.Pattern

/-- Whether what the groups took they took in ways of `gs`. -/
def IsCaptured (gs : List (Nat × Pattern)) (r : Run) : Prop :=
  ∀ c ∈ r.groups, ∃ q, (c.1, q) ∈ gs ∧ ∃ a, ∃ s ∈ q.runs a, c.2 = a.upTo s.stop

theorem IsCaptured.andThen {gs : List (Nat × Pattern)} {r s : Run} (hr : IsCaptured gs r)
    (h : IsCaptured gs s) : IsCaptured gs (r.andThen s) := by
  intro c hc
  obtain hc | hc := List.mem_append.mp hc
  · exact h c hc
  · exact hr c hc

theorem isCaptured_of_mem_runs {p : Pattern} {a : Cursor} {r : Run} (h : r ∈ p.runs a) :
    IsCaptured p.subgroups r := by
  have hn : ∀ b, IsCaptured p.subgroups ⟨b, []⟩ := fun b c hc => absurd hc List.not_mem_nil
  refine runs_induction (P := fun _ => IsCaptured p.subgroups) hn (fun _ _ _ => hn _)
    (fun _ _ _ => .andThen) ?_ a r h
  intro i q hq a s hs ih
  exact List.forall_mem_cons.mpr ⟨⟨q, hq, a, s, hs, rfl⟩, ih⟩

theorem exists_of_group? {p : Pattern} {m : Match} (h : m.run ∈ p.runs m.start) {i : Nat}
    {w : List Char} (hw : m.group? i = some w) :
    ∃ q, (i, q) ∈ p.subgroups ∧ ∃ a, ∃ s ∈ q.runs a, w = a.upTo s.stop := by
  obtain ⟨l, r, hl, -⟩ := List.lookup_eq_some_iff.mp hw
  have hm : (i, w) ∈ m.run.groups := by
    rw [hl]
    exact List.mem_append_right l List.mem_cons_self
  exact isCaptured_of_mem_runs h _ hm

theorem subgroups_concat (ps : List Pattern) : (concat ps).subgroups = ps.flatMap subgroups := by
  induction ps with
  | nil => rfl
  | cons p ps ih =>
    cases ps with
    | nil => exact (List.append_nil _).symm
    | cons q qs => exact congrArg (p.subgroups ++ ·) ih

theorem subgroups_literal (w : String) : (literal w).subgroups = [] := by
  rw [literal, subgroups_concat, List.flatMap_map]
  exact List.flatMap_eq_nil_iff.mpr fun _ _ => rfl

end EndpointCatalog.Pattern
