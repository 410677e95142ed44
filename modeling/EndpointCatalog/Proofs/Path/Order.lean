import EndpointCatalog.Path.Basic
import EndpointCatalog.Proofs.Sorting
import Mathlib.Data.List.Nodup

namespace EndpointCatalog.Path

namespace Component

variable {a b : Component}

theorem compare_eq_compareLex :
    Component.compare = compareLex (compareOn rank) (compareOn text) := rfl

instance : Std.TransCmp Component.compare := by
  rw [compare_eq_compareLex]
  infer_instance

theorem eq_of_rank_of_text (hr : a.rank = b.rank) (ht : a.text = b.text) : a = b := by
  cases a <;> cases b <;> simp_all [rank, text]

theorem compare_eq_iff : a.compare b = .eq ↔ a = b := by
  rw [Component.compare, Ordering.then_eq_eq, Std.compare_eq_iff_eq, Std.compare_eq_iff_eq]
  constructor
  · exact fun h => eq_of_rank_of_text h.1 h.2
  · rintro rfl
    exact ⟨rfl, rfl⟩

end Component

theorem compareComponents_eq_compareLex :
    compareComponents = List.compareLex Component.compare := by
  funext as bs
  induction as generalizing bs with
  | nil => cases bs <;> rfl
  | cons a as ih =>
    cases bs with
    | nil => rfl
    | cons b bs => rw [compareComponents, ih, List.compareLex_cons_cons]

instance : Std.TransCmp compareComponents := by
  rw [compareComponents_eq_compareLex]
  infer_instance

theorem compareComponents_eq_iff {as bs : List Component} :
    compareComponents as bs = .eq ↔ as = bs := by
  induction as generalizing bs with
  | nil => cases bs <;> simp [compareComponents]
  | cons a as ih =>
    cases bs with
    | nil => simp [compareComponents]
    | cons b bs =>
      rw [compareComponents, Ordering.then_eq_eq, Component.compare_eq_iff, ih, List.cons.injEq]

variable {p q r : Path}

theorem compare_eq_iff : p.compare q = .eq ↔ p.components = q.components :=
  compareComponents_eq_iff

theorem isLE_compare_trans (hpq : (p.compare q).isLE) (hqr : (q.compare r).isLE) :
    (p.compare r).isLE := by
  rw [compare] at hpq hqr ⊢
  exact Std.TransCmp.isLE_trans hpq hqr

theorem isLE_compare_total (p q : Path) : (p.compare q).isLE || (q.compare p).isLE := by
  have h : compareComponents q.components p.components =
    (compareComponents p.components q.components).swap := Std.OrientedCmp.eq_swap
  rw [compare, compare, h]
  cases compareComponents p.components q.components <;> rfl

theorem components_eq_of_isLE (hpq : (p.compare q).isLE) (hqp : (q.compare p).isLE) :
    p.components = q.components :=
  compareComponents_eq_iff.mp (Std.OrientedCmp.isLE_antisymm hpq hqp)

theorem eq_of_pairwise_lt {ps qs : List Path} (hp : ps.Pairwise fun p q => p.compare q = .lt)
    (hq : qs.Pairwise fun p q => p.compare q = .lt) (h : ∀ p, p ∈ ps ↔ p ∈ qs) : ps = qs := by
  have hn : ∀ {p q : Path}, p.compare q = .lt → p ≠ q := by
    rintro p q hlt rfl
    rw [compare_eq_iff.mpr rfl] at hlt
    cases hlt
  have hperm : ps.Perm qs := (List.perm_ext_iff_of_nodup (hp.imp hn) (hq.imp hn)).mpr h
  refine hperm.eq_of_pairwise (fun p q _ _ hpq hqp => ?_) hp hq
  have hc : p.components = q.components := by
    apply components_eq_of_isLE
    · rw [hpq]
      rfl
    · rw [hqp]
      rfl
  rw [compare_eq_iff.mpr hc] at hpq
  cases hpq

variable {α : Type} {path : α → Path} {xs ys : List α}

/-- Values in the order of their paths; those of one path keep their places. -/
def sortBy (path : α → Path) (xs : List α) : List α :=
  xs.mergeSort fun a b => ((path a).compare (path b)).isLE

theorem sortBy_perm (path : α → Path) (xs : List α) : (sortBy path xs).Perm xs :=
  List.mergeSort_perm xs _

theorem isLE_compare_trans_by (path : α → Path) (a b c : α) :
    ((path a).compare (path b)).isLE → ((path b).compare (path c)).isLE →
      ((path a).compare (path c)).isLE :=
  isLE_compare_trans

theorem isLE_compare_total_by (path : α → Path) (a b : α) :
    ((path a).compare (path b)).isLE || ((path b).compare (path a)).isLE :=
  isLE_compare_total _ _

theorem pairwise_sortBy (path : α → Path) (xs : List α) :
    (sortBy path xs).Pairwise fun a b => ((path a).compare (path b)).isLE :=
  List.pairwise_mergeSort (isLE_compare_trans_by path) (isLE_compare_total_by path) xs

/-- Whether `ys` are the values `xs` in the order of their paths, where values whose paths have the
same components stand as in `xs`. -/
structure IsOrdering (path : α → Path) (xs ys : List α) : Prop where
  sorted : ys.Pairwise fun a b => ((path a).compare (path b)).isLE
  stable : ∀ cs : List Component, ys.filter (fun a => (path a).components = cs) =
    xs.filter fun a => (path a).components = cs

theorem isOrdering_sortBy (path : α → Path) (xs : List α) :
    IsOrdering path xs (sortBy path xs) where
  sorted := pairwise_sortBy path xs
  stable cs := by
    refine Sorting.filter_mergeSort (isLE_compare_trans_by path) (isLE_compare_total_by path)
      (fun a b ha hb => ?_) xs
    have he := (of_decide_eq_true ha).trans (of_decide_eq_true hb).symm
    rw [compare_eq_iff.mpr he]
    rfl

theorem IsOrdering.filter (h : IsOrdering path xs ys) (p : α → Bool) :
    IsOrdering path (xs.filter p) (ys.filter p) where
  sorted := h.sorted.filter p
  stable cs := by
    rw [List.filter_comm, h.stable, List.filter_comm]

theorem exists_sortBy_append_cons (path : α → Path) (xs : List α) (a : α) (ys : List α) :
    ∃ x y, sortBy path (xs ++ a :: ys) = x ++ a :: y ∧ sortBy path (xs ++ ys) = x ++ y :=
  Sorting.exists_mergeSort_append_cons (isLE_compare_trans_by path) (isLE_compare_total_by path)
    xs a ys

/-- Whether no two of some values have paths with the same components. -/
def Apart (path : α → Path) (xs : List α) : Prop :=
  xs.Pairwise fun a b => (path a).compare (path b) ≠ .eq

theorem Apart.eq_of_components (h : Apart path xs) {a b : α} (ha : a ∈ xs) (hb : b ∈ xs)
    (he : (path a).components = (path b).components) : a = b := by
  have hn : (xs.map fun x => (path x).components).Nodup :=
    List.pairwise_map.mpr (h.imp fun hab => mt compare_eq_iff.mpr hab)
  exact List.inj_on_of_nodup_map hn ha hb he

theorem Apart.of_perm (h : Apart path xs) (hp : xs.Perm ys) : Apart path ys := by
  refine hp.pairwise h fun {a b} hab hba => hab ?_
  exact compare_eq_iff.mpr (compare_eq_iff.mp hba).symm

theorem Apart.sortBy_eq_of_pairwise (h : Apart path xs) (hp : xs.Perm ys)
    (hs : ys.Pairwise fun a b => ((path a).compare (path b)).isLE) : sortBy path xs = ys := by
  refine List.Perm.eq_of_pairwise (fun a b ha hb hab hba => ?_) (pairwise_sortBy path xs) hs
    ((sortBy_perm path xs).trans hp)
  have ha' : a ∈ xs := (sortBy_perm path xs).mem_iff.mp ha
  exact h.eq_of_components ha' (hp.mem_iff.mpr hb) (components_eq_of_isLE hab hba)

theorem Apart.sortBy_eq (h : Apart path xs) (hp : xs.Perm ys) : sortBy path xs = sortBy path ys :=
  h.sortBy_eq_of_pairwise (hp.trans (sortBy_perm path ys).symm) (pairwise_sortBy path ys)

end EndpointCatalog.Path
