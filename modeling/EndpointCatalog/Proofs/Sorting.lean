import Mathlib.Data.List.Nodup

namespace EndpointCatalog.Sorting

variable {α : Type} {le : α → α → Bool} (trans : ∀ a b c, le a b → le b c → le a c)
  (total : ∀ a b, le a b || le b a)

include trans total

/-- Values that are all as good as each other keep their order. -/
theorem filter_mergeSort {p : α → Bool} (hp : ∀ a b, p a → p b → le a b) (xs : List α) :
    (xs.mergeSort le).filter p = xs.filter p := by
  have hs : (xs.filter p).Pairwise fun a b => le a b :=
    List.pairwise_of_forall_mem_list fun a ha b hb =>
      hp a b (List.mem_filter.mp ha).2 (List.mem_filter.mp hb).2
  have hsub := (List.sublist_mergeSort trans total hs List.filter_sublist).filter p
  rw [List.filter_eq_self.mpr fun a ha => (List.mem_filter.mp ha).2] at hsub
  exact (hsub.eq_of_length ((List.mergeSort_perm xs le).filter p).length_eq.symm).symm

theorem mergeSort_cons_eq (a : α) (xs : List α) :
    (a :: xs).mergeSort le =
      (xs.mergeSort le).filter (!le a ·) ++ a :: (xs.mergeSort le).filter (le a) := by
  obtain ⟨x, y, hc, hs, hx⟩ := List.mergeSort_cons trans total a xs
  have hp := List.pairwise_mergeSort trans total (a :: xs)
  rw [hc] at hp
  have hy : ∀ b ∈ y, le a b := (List.pairwise_cons.mp (List.pairwise_append.mp hp).2.1).1
  rw [hc, hs, List.filter_append, List.filter_append, List.filter_eq_self.mpr hx,
    List.filter_eq_self.mpr hy, List.filter_eq_nil_iff.mpr, List.filter_eq_nil_iff.mpr,
    List.append_nil, List.nil_append]
  · exact fun b hb => by simpa using hx b hb
  · exact fun b hb => by simpa using hy b hb

/-- One value more changes nothing about the others and their order. -/
theorem exists_mergeSort_append_cons (xs : List α) (a : α) (ys : List α) :
    ∃ x y, (xs ++ a :: ys).mergeSort le = x ++ a :: y ∧ (xs ++ ys).mergeSort le = x ++ y := by
  induction xs with
  | nil =>
    obtain ⟨x, y, hc, hs, -⟩ := List.mergeSort_cons trans total a ys
    exact ⟨x, y, hc, hs⟩
  | cons b xs ih =>
    obtain ⟨x, y, hc, hs⟩ := ih
    have hp := List.pairwise_mergeSort trans total (xs ++ a :: ys)
    rw [hc] at hp
    obtain ⟨-, hy, hx⟩ := List.pairwise_append.mp hp
    rw [List.cons_append, List.cons_append, mergeSort_cons_eq trans total, hc,
      mergeSort_cons_eq trans total, hs]
    -- `b` goes to the side of `a` on which it belongs
    by_cases hba : le b a
    · have hb : ∀ c ∈ y, le b c := fun c hm => trans b a c hba ((List.pairwise_cons.mp hy).1 c hm)
      have hf : y.filter (!le b ·) = [] :=
        List.filter_eq_nil_iff.mpr fun c hm => by simpa using hb c hm
      refine ⟨x.filter (!le b ·) ++ b :: x.filter (le b), y, ?_, ?_⟩
      all_goals simp [List.filter_append, hba, List.filter_eq_self.mpr hb, hf]
    · have hb : ∀ c ∈ x, !le b c := fun c hm => by
        rw [Bool.not_eq_true', ← Bool.not_eq_true]
        exact fun h => hba (trans b c a h (hx c hm a List.mem_cons_self))
      have hf : x.filter (le b) = [] :=
        List.filter_eq_nil_iff.mpr fun c hm => by simpa using hb c hm
      refine ⟨x, y.filter (!le b ·) ++ b :: y.filter (le b), ?_, ?_⟩
      all_goals simp [List.filter_append, hba, List.filter_eq_self.mpr hb, hf]

end EndpointCatalog.Sorting
