import EndpointCatalog.Text.Search

namespace EndpointCatalog.Text.Search

open Text.Blank

theorem contains_iff {w cs : List Char} : contains w cs = true ↔ w <:+: cs := by
  induction cs with
  | nil => simp [contains, List.isEmpty_iff]
  | cons c cs ih => simp [contains, List.infix_cons_iff, ih]

theorem notMem_replace {old new : Char} (h : old ≠ new) (cs : List Char) :
    old ∉ replace old new cs := by
  intro hm
  obtain ⟨c, -, hc⟩ := List.mem_map.mp hm
  split at hc
  · exact h hc.symm
  · contradiction

theorem replace_of_notMem {old : Char} {cs : List Char} (h : old ∉ cs) (new : Char) :
    replace old new cs = cs := by
  refine (List.map_congr_left fun c hc => ?_).trans (List.map_id cs)
  refine if_neg fun he => h ?_
  rwa [← he]

theorem replace_append (old new : Char) (x y : List Char) :
    replace old new (x ++ y) = replace old new x ++ replace old new y := List.map_append

theorem prefix_of_prefix_append_cons {c : Char} {w x y : List Char} (hw : c ∉ w)
    (h : w <+: x ++ c :: y) : w <+: x := by
  induction w generalizing x with
  | nil => exact List.nil_prefix
  | cons d w ih =>
    rw [List.mem_cons, not_or] at hw
    cases x with
    | nil => exact absurd (List.cons_prefix_cons.mp h).1.symm hw.1
    | cons e x =>
      obtain ⟨he, hp⟩ := List.cons_prefix_cons.mp h
      exact List.cons_prefix_cons.mpr ⟨he, ih hw.2 hp⟩

theorem infix_append_cons {c : Char} {w x y : List Char} (hw : c ∉ w) :
    w <:+: x ++ c :: y ↔ w <:+: x ∨ w <:+: y := by
  induction x with
  | nil =>
    have h : w <+: c :: y ↔ w = [] := by
      constructor
      · intro hp
        exact List.prefix_nil.mp (prefix_of_prefix_append_cons (x := []) hw hp)
      · rintro rfl
        exact List.nil_prefix
    simp [List.infix_cons_iff, h]
  | cons d x ih =>
    have h : w <+: d :: (x ++ c :: y) ↔ w <+: d :: x := by
      constructor
      · exact prefix_of_prefix_append_cons (x := d :: x) hw
      · intro hp
        exact hp.trans (List.prefix_append (d :: x) (c :: y))
    rw [List.cons_append, List.infix_cons_iff, List.infix_cons_iff, h, ih, or_assoc]

/-- What is sought without `c` lies on one side of it. -/
theorem contains_append_cons {c : Char} {w : List Char} (hw : c ∉ w) (x y : List Char) :
    contains w (x ++ c :: y) = (contains w x || contains w y) := by
  rw [Bool.eq_iff_iff, Bool.or_eq_true, contains_iff, contains_iff, contains_iff,
    infix_append_cons hw]

theorem after?_eq_some {l cs r : List Char} : after? l cs = some r ↔ cs = l ++ r := by
  induction l generalizing cs with
  | nil => simp [after?]
  | cons a l ih =>
    cases cs with
    | nil => simp [after?]
    | cons c cs =>
      by_cases h : a = c
      · simp [after?, h, ih]
      · simp [after?, h, Ne.symm h]

theorem until?_eq_some {t cs r : List Char} : until? t cs = some r ↔ cs = r ++ t := by
  simp only [until?, Option.map_eq_some_iff, after?_eq_some]
  constructor
  · rintro ⟨x, hx, rfl⟩
    rw [← List.reverse_reverse cs, hx]
    simp
  · rintro rfl
    exact ⟨r.reverse, by simp, by simp⟩

theorem splitOnP_append_of_forall {p : Char → Bool} {x : List Char} (hx : ∀ c ∈ x, p c = false)
    {y l : List Char} {ls : List (List Char)} (hy : y.splitOnP p = l :: ls) :
    (x ++ y).splitOnP p = (x ++ l) :: ls := by
  induction x with
  | nil => exact hy
  | cons c x ih =>
    obtain ⟨hc, hx⟩ := List.forall_mem_cons.mp hx
    rw [List.cons_append, List.splitOnP_cons_eq_if_modifyHead, if_neg (Bool.eq_false_iff.mp hc),
      ih hx]
    rfl

theorem forall_of_mem_splitOnP {p : Char → Bool} {x w : List Char} (h : w ∈ x.splitOnP p) :
    ∀ d ∈ w, d ∈ x ∧ p d = false := by
  induction x generalizing w with
  | nil =>
    obtain rfl := List.mem_singleton.mp h
    exact fun d hd => absurd hd List.not_mem_nil
  | cons c x ih =>
    have hx : ∀ {v}, v ∈ x.splitOnP p → ∀ d ∈ v, d ∈ c :: x ∧ p d = false := fun hv d hd =>
      (ih hv d hd).imp_left (List.mem_cons_of_mem c)
    rw [List.splitOnP_cons_eq_if_modifyHead] at h
    split at h
    · obtain rfl | h := List.mem_cons.mp h
      · exact fun d hd => absurd hd List.not_mem_nil
      · exact hx h
    · rename_i hc
      obtain ⟨l, ls, hl⟩ := List.exists_cons_of_ne_nil (List.splitOnP_ne_nil p x)
      rw [hl] at h hx
      obtain rfl | h := List.mem_cons.mp h
      · refine List.forall_mem_cons.mpr ⟨⟨List.mem_cons_self, Bool.eq_false_iff.mpr hc⟩, ?_⟩
        exact hx List.mem_cons_self
      · exact hx (List.mem_cons_of_mem l h)

theorem notMem_of_mem_splitOn {c : Char} {x w : List Char} (h : w ∈ x.splitOn c) : c ∉ w := by
  intro hc
  have hb := (forall_of_mem_splitOnP h c hc).2
  rw [beq_self_eq_true] at hb
  cases hb

theorem mem_of_mem_splitOn {c d : Char} {x w : List Char} (hw : w ∈ x.splitOn c) (hd : d ∈ w) :
    d ∈ x := (forall_of_mem_splitOnP hw d hd).1

theorem exists_splitOn_eq {c : Char} {cs : List Char} (h : c ∈ cs) :
    ∃ l m ls, cs.splitOn c = l :: m :: ls := by
  obtain ⟨x, y, rfl, hx⟩ := List.eq_append_cons_of_mem h
  obtain ⟨w, ws, hw⟩ := List.exists_cons_of_ne_nil (List.splitOn_ne_nil c y)
  rw [List.splitOn_append_cons_self_of_not_mem hx, hw]
  exact ⟨x, w, ws, rfl⟩

theorem intercalate_cons_eq_flatMap (c : Char) (w : List Char) (ws : List (List Char)) :
    [c].intercalate (w :: ws) = w ++ ws.flatMap (c :: ·) := by
  induction ws generalizing w with
  | nil => rw [List.intercalate_singleton, List.flatMap_nil, List.append_nil]
  | cons v ws ih =>
    rw [List.intercalate_cons_cons, ih, List.flatMap_cons, List.append_assoc]
    rfl

theorem intercalate_append {c : Char} {vs ws : List (List Char)} (hv : vs ≠ []) (hw : ws ≠ []) :
    [c].intercalate (vs ++ ws) = [c].intercalate vs ++ c :: [c].intercalate ws := by
  obtain ⟨v, vs, rfl⟩ := List.exists_cons_of_ne_nil hv
  obtain ⟨w, ws, rfl⟩ := List.exists_cons_of_ne_nil hw
  simp [intercalate_cons_eq_flatMap]

theorem intercalate_prefix {c : Char} {vs ws : List (List Char)} (h : vs <+: ws) :
    [c].intercalate vs <+: [c].intercalate ws := by
  obtain ⟨us, rfl⟩ := h
  by_cases hv : vs = []
  · subst hv
    exact List.nil_prefix
  by_cases hu : us = []
  · have he : [c].intercalate (vs ++ us) = [c].intercalate vs := by rw [hu, List.append_nil]
    exact he ▸ List.prefix_rfl
  · rw [intercalate_append hv hu]
    exact List.prefix_append _ _

theorem mem_intercalate {c d : Char} {ws : List (List Char)} (h : d ∈ [c].intercalate ws) :
    d = c ∨ ∃ w ∈ ws, d ∈ w := by
  cases ws with
  | nil => exact absurd h List.not_mem_nil
  | cons w ws =>
    rw [intercalate_cons_eq_flatMap, List.mem_append, List.mem_flatMap] at h
    obtain h | ⟨v, hv, h⟩ := h
    · exact .inr ⟨w, List.mem_cons_self, h⟩
    · exact (List.mem_cons.mp h).imp_right fun h => ⟨v, List.mem_cons_of_mem w hv, h⟩

/-- Pieces without the separator are told by their join. -/
theorem intercalate_inj {c : Char} {vs ws : List (List Char)} (hv : vs ≠ []) (hw : ws ≠ [])
    (hcv : ∀ v ∈ vs, c ∉ v) (hcw : ∀ w ∈ ws, c ∉ w) :
    [c].intercalate vs = [c].intercalate ws ↔ vs = ws := by
  refine ⟨fun h => ?_, congrArg _⟩
  rw [← List.splitOn_intercalate c hcv hv, h, List.splitOn_intercalate c hcw hw]

theorem intercalate_concat_nil (c : Char) (ws : List (List Char)) :
    [c].intercalate (ws ++ [[]]) = ws.flatMap (· ++ [c]) := by
  induction ws with
  | nil => rfl
  | cons w ws ih =>
    rw [List.cons_append, List.intercalate_cons_of_ne_nil (List.concat_ne_nil _ _), ih,
      List.flatMap_cons]

theorem flatMap_concat_inj {c : Char} {vs ws : List (List Char)} (hv : ∀ v ∈ vs, c ∉ v)
    (hw : ∀ w ∈ ws, c ∉ w) : vs.flatMap (· ++ [c]) = ws.flatMap (· ++ [c]) ↔ vs = ws := by
  have hn : ∀ w ∈ [([] : List Char)], c ∉ w := List.forall_mem_singleton.mpr List.not_mem_nil
  rw [← intercalate_concat_nil, ← intercalate_concat_nil, intercalate_inj (List.concat_ne_nil _ _)
    (List.concat_ne_nil _ _) (List.forall_mem_append.mpr ⟨hv, hn⟩)
    (List.forall_mem_append.mpr ⟨hw, hn⟩), List.append_cancel_right_eq]

theorem length_intercalate_lt {c : Char} {vs ws : List (List Char)} (hv : vs ≠ []) (hw : ws ≠ []) :
    ([c].intercalate ws).length < ([c].intercalate (vs ++ ws)).length := by
  rw [intercalate_append hv hw, List.length_append, List.length_cons]
  omega

theorem prefix_of_before? {p : List Char → Bool} {x w : List Char} (h : before? p x = some w) :
    w <+: x := by
  induction x generalizing w with
  | nil =>
    rw [before?] at h
    split at h
    · obtain rfl := Option.some.inj h
      exact List.nil_prefix
    · cases h
  | cons c x ih =>
    rw [before?] at h
    split at h
    · obtain rfl := Option.some.inj h
      exact List.nil_prefix
    · obtain ⟨v, hv, rfl⟩ := Option.map_eq_some_iff.mp h
      exact (List.prefix_cons_inj c).mpr (ih hv)

theorem append_cons_inj {c : Char} {x y v w : List Char} (hx : c ∉ x) (hv : c ∉ v) :
    x ++ c :: y = v ++ c :: w ↔ x = v ∧ y = w := by
  constructor
  · intro h
    induction x generalizing v with
    | nil =>
      cases v with
      | nil => exact ⟨rfl, (List.cons.inj h).2⟩
      | cons d v => exact absurd (List.mem_cons.mpr (.inl (List.cons.inj h).1)) hv
    | cons d x ih =>
      cases v with
      | nil => exact absurd (List.mem_cons.mpr (.inl (List.cons.inj h).1.symm)) hx
      | cons e v =>
        rw [List.mem_cons, not_or] at hx hv
        obtain ⟨rfl, ht⟩ := List.cons.inj h
        obtain ⟨rfl, rfl⟩ := ih hx.2 hv.2 ht
        exact ⟨rfl, rfl⟩
  · rintro ⟨rfl, rfl⟩
    rfl

/-- What stands before the last `c` of a text. -/
def beforeLast (c : Char) (cs : List Char) : List Char := (cs.reverse.dropWhile (· ≠ c)).tail.reverse

def behindLast (c : Char) (cs : List Char) : List Char := (cs.reverse.takeWhile (· ≠ c)).reverse

variable {c : Char} {y : List Char}

theorem beforeLast_append_cons (h : c ∉ y) (x : List Char) : beforeLast c (x ++ c :: y) = x := by
  have hy : ∀ d ∈ y.reverse, decide (d ≠ c) = true := fun d hd =>
    decide_eq_true fun he => h (he ▸ List.mem_reverse.mp hd)
  have hr : (x ++ c :: y).reverse = y.reverse ++ c :: x.reverse := by simp
  rw [beforeLast, hr, List.dropWhile_append_of_pos hy, List.dropWhile_cons_of_neg (by simp),
    List.tail_cons, List.reverse_reverse]

theorem behindLast_append_cons (h : c ∉ y) (x : List Char) : behindLast c (x ++ c :: y) = y := by
  have hy : ∀ d ∈ y.reverse, decide (d ≠ c) = true := fun d hd =>
    decide_eq_true fun he => h (he ▸ List.mem_reverse.mp hd)
  have hr : (x ++ c :: y).reverse = y.reverse ++ c :: x.reverse := by simp
  rw [behindLast, hr, List.takeWhile_append_of_pos hy, List.takeWhile_cons_of_neg (by simp),
    List.append_nil, List.reverse_reverse]

theorem append_cons_inj_last {x v w : List Char} (hy : c ∉ y) (hw : c ∉ w) :
    x ++ c :: y = v ++ c :: w ↔ x = v ∧ y = w := by
  constructor
  · intro h
    have hx := congrArg (beforeLast c) h
    have hz := congrArg (behindLast c) h
    rw [beforeLast_append_cons hy, beforeLast_append_cons hw] at hx
    rw [behindLast_append_cons hy, behindLast_append_cons hw] at hz
    exact ⟨hx, hz⟩
  · rintro ⟨rfl, rfl⟩
    rfl

/-- A text that holds `c` is cut at its last `c`. -/
theorem cut_at_last {cs : List Char} (h : c ∈ cs) :
    cs = beforeLast c cs ++ c :: behindLast c cs ∧ c ∉ behindLast c cs := by
  obtain ⟨y, x, hr, hn⟩ := List.eq_append_cons_of_mem (List.mem_reverse.mpr h)
  have hcs : cs = x.reverse ++ c :: y.reverse := by
    rw [← List.reverse_reverse cs, hr]
    simp
  have hy : c ∉ y.reverse := mt List.mem_reverse.mp hn
  rw [hcs, beforeLast_append_cons hy, behindLast_append_cons hy]
  exact ⟨rfl, hy⟩

end EndpointCatalog.Text.Search
