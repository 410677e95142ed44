import EndpointCatalog.Proofs.Text.Search
import Mathlib.Data.List.Chain

namespace EndpointCatalog.Text.Search

variable {c d : Char} {x y cs : List Char}

/-- Whether `c` never stands twice in a row. -/
def IsSpaced (c : Char) (cs : List Char) : Prop := contains [c, c] cs = false

instance (c : Char) (cs : List Char) : Decidable (IsSpaced c cs) :=
  inferInstanceAs (Decidable (_ = _))

theorem isSpaced_iff_isChain : IsSpaced c cs ↔ cs.IsChain fun a b => ¬ (a = c ∧ b = c) := by
  rw [IsSpaced, ← Bool.not_eq_true, contains_iff, List.isChain_iff_forall_rel_of_append_cons_cons]
  constructor
  · rintro h a b x y rfl ⟨rfl, rfl⟩
    exact h ⟨x, y, by simp⟩
  · rintro h ⟨x, y, he⟩
    exact @h c c x y (by simp [← he]) ⟨rfl, rfl⟩

theorem IsSpaced.mono (h : IsSpaced c cs) (hx : x <:+: cs) : IsSpaced c x := by
  rw [IsSpaced, ← Bool.not_eq_true, contains_iff] at h ⊢
  exact fun hc => h (hc.trans hx)

theorem isSpaced_append : IsSpaced c (x ++ y) ↔
    IsSpaced c x ∧ IsSpaced c y ∧ ¬ (x.getLast? = some c ∧ y.head? = some c) := by
  simp only [isSpaced_iff_isChain, List.isChain_append]
  refine and_congr_right fun _ => and_congr_right fun _ => ?_
  constructor
  · rintro h ⟨hx, hy⟩
    exact h c hx c hy ⟨rfl, rfl⟩
  · rintro h a ha b hb ⟨rfl, rfl⟩
    exact h ⟨ha, hb⟩

theorem isSpaced_of_notMem (h : c ∉ cs) : IsSpaced c cs := by
  rw [IsSpaced, ← Bool.not_eq_true, contains_iff]
  exact fun hc => h (hc.subset List.mem_cons_self)

theorem isSpaced_cons : IsSpaced c (c :: y) ↔ IsSpaced c y ∧ y.head? ≠ some c := by
  rw [← List.singleton_append, isSpaced_append, List.getLast?_singleton, and_iff_right rfl,
    and_iff_right (isSpaced_iff_isChain.mpr (.singleton c))]

theorem isSpaced_concat : IsSpaced c (x ++ [c]) ↔ IsSpaced c x ∧ x.getLast? ≠ some c := by
  rw [isSpaced_append, List.head?_singleton, and_iff_left (a := x.getLast? = _) rfl,
    and_iff_right (isSpaced_iff_isChain.mpr (.singleton c))]

theorem isSpaced_append_cons :
    IsSpaced c (x ++ c :: y) ↔ IsSpaced c (x ++ [c]) ∧ IsSpaced c (c :: y) := by
  simp only [isSpaced_iff_isChain]
  exact List.isChain_split

theorem isSpaced_replace (h : d ∉ cs) : IsSpaced d (replace c d cs) ↔ IsSpaced c cs := by
  have hd : ∀ a ∈ cs, (if a = c then d else a) = d ↔ a = c := by
    intro a ha
    split
    · rename_i hac
      exact iff_of_true rfl hac
    · rename_i hac
      refine iff_of_false ?_ hac
      rintro rfl
      exact h ha
  rw [isSpaced_iff_isChain, isSpaced_iff_isChain, replace, List.isChain_map]
  refine List.IsChain.iff_of_mem_imp fun a b ha hb => ?_
  rw [hd a ha, hd b hb]

theorem isSpaced_cons_intercalate {ws : List (List Char)} (hn : ws ≠ []) (hc : ∀ w ∈ ws, c ∉ w) :
    IsSpaced c (c :: [c].intercalate ws) ↔ [] ∉ ws.dropLast := by
  induction ws with
  | nil => exact absurd rfl hn
  | cons w ws ih =>
    obtain ⟨hw, hws⟩ := List.forall_mem_cons.mp hc
    have hs : IsSpaced c (c :: w) :=
      isSpaced_cons.mpr ⟨isSpaced_of_notMem hw, fun h => hw (List.mem_of_mem_head? h)⟩
    by_cases he : ws = []
    · rw [he, List.intercalate_singleton]
      exact iff_of_true hs List.not_mem_nil
    · have hl : (c :: w).getLast? = some c ↔ [] = w := by
        cases w with
        | nil => exact iff_of_true rfl rfl
        | cons d w =>
          refine iff_of_false (fun h => ?_) nofun
          rw [List.getLast?_cons_cons] at h
          exact hw (List.mem_of_getLast? h)
      rw [List.intercalate_cons_of_ne_nil he, List.append_assoc, List.singleton_append,
        ← List.cons_append, isSpaced_append_cons, isSpaced_concat, and_iff_right hs, ih he hws,
        List.dropLast_cons_of_ne_nil he, List.mem_cons, not_or, ne_eq, hl]

end EndpointCatalog.Text.Search
