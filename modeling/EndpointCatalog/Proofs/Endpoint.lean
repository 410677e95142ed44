import EndpointCatalog.Endpoint
import EndpointCatalog.Proofs.Sorting

namespace EndpointCatalog.Endpoint

theorem command_le_trans (a b c : Endpoint) : decide (a.command ≤ b.command) →
    decide (b.command ≤ c.command) → decide (a.command ≤ c.command) := fun hab hbc =>
  decide_eq_true (String.le_trans (of_decide_eq_true hab) (of_decide_eq_true hbc))

theorem command_le_total (a b : Endpoint) :
    decide (a.command ≤ b.command) || decide (b.command ≤ a.command) :=
  (Bool.or_eq_true _ _).mpr ((String.le_total _ _).imp decide_eq_true decide_eq_true)

theorem sort_perm (es : List Endpoint) : (sort es).Perm es := List.mergeSort_perm es _

theorem pairwise_sort (es : List Endpoint) :
    (sort es).Pairwise fun a b => a.command ≤ b.command :=
  (List.pairwise_mergeSort command_le_trans command_le_total es).imp of_decide_eq_true

theorem filter_sort (command : String) (es : List Endpoint) :
    (sort es).filter (·.command = command) = es.filter (·.command = command) := by
  refine Sorting.filter_mergeSort command_le_trans command_le_total (fun a b ha hb => ?_) es
  rw [of_decide_eq_true ha, of_decide_eq_true hb]
  exact decide_eq_true (String.le_refl command)

end EndpointCatalog.Endpoint
