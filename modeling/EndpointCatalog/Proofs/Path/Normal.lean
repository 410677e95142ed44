import EndpointCatalog.Proofs.Path.Parent
import EndpointCatalog.Proofs.Text.Spaced

namespace EndpointCatalog.Path

open Text.Blank Text.Search

variable {p q : Path} {c : Char}

/-- Whether no slash of a path follows another. -/
def IsNormal (p : Path) : Prop := IsSpaced '/' p.text.toList

instance (p : Path) : Decidable p.IsNormal := inferInstanceAs (Decidable (IsSpaced _ _))

theorem intercalate_segments (p : Path) : ['/'].intercalate p.segments = p.text.toList :=
  List.intercalate_splitOn _

theorem toList_ofSegments (ss : List (List Char)) :
    (ofSegments ss).text.toList = ['/'].intercalate ss := String.toList_ofList

theorem text_prefix_of_parent? (h : p.parent? = some q) : q.text.toList <+: p.text.toList := by
  rw [← intercalate_segments p]
  rw [parent?] at h
  split at h
  · rename_i s ss hs
    rw [hs]
    obtain ⟨ks, hk, rfl⟩ := Option.map_eq_some_iff.mp h
    split
    · rw [List.intercalate_cons_of_ne_nil (List.cons_ne_nil _ _)]
      exact List.prefix_append ['/'] _
    · rw [toList_ofSegments]
      exact intercalate_prefix ((List.prefix_cons_inj []).mpr (initSegments?_eq_some hk).1)
  · rename_i ss hs
    rw [hs]
    split at h
    · rename_i ks hk
      obtain rfl := Option.some.inj h
      rw [toList_ofSegments]
      exact intercalate_prefix ((List.prefix_cons_inj ['.']).mpr (initSegments?_eq_some hk).1)
    · obtain rfl := Option.some.inj h
      exact List.nil_prefix
  · obtain ⟨ks, hk, rfl⟩ := Option.map_eq_some_iff.mp h
    rw [toList_ofSegments]
    exact intercalate_prefix (initSegments?_eq_some hk).1

theorem text_prefix_of_ancestor? {n : Nat} (h : p.ancestor? n = some q) :
    q.text.toList <+: p.text.toList := by
  induction n generalizing p with
  | zero =>
    obtain rfl := Option.some.inj h
    exact List.prefix_rfl
  | succ n ih =>
    obtain ⟨r, hr, hq⟩ := Option.bind_eq_some_iff.mp h
    exact (ih hq).trans (text_prefix_of_parent? hr)

theorem IsNormal.ancestor? {n : Nat} (hp : p.IsNormal) (h : p.ancestor? n = some q) :
    q.IsNormal := IsSpaced.mono hp (text_prefix_of_ancestor? h).isInfix

/-- A relative path that is joined to one without doubled slashes brings all there are. -/
theorem isNormal_join_iff (hp : p.IsNormal) (hq : q.isAbsolute = false) :
    (p.join q).IsNormal ↔ q.IsNormal := by
  have hh : q.text.toList.head? ≠ some '/' := beq_eq_false_iff_ne.mp hq
  have hp : IsSpaced '/' p.text.toList := hp
  have hs : "/".toList = ['/'] := rfl
  rw [join, hq, if_neg Bool.false_ne_true]
  split
  · exact Iff.rfl
  · rw [IsNormal, IsNormal, String.toList_append, isSpaced_append, and_iff_right hp,
      and_iff_left fun h => hh h.2]
  · rename_i d hd hl
    have hl : p.text.toList.getLast? ≠ some '/' := by
      rw [hl]
      exact fun he => hd (Option.some.inj he)
    rw [IsNormal, IsNormal, String.toList_append, String.toList_append, hs, List.append_assoc,
      List.singleton_append, isSpaced_append_cons, isSpaced_concat, isSpaced_cons,
      and_iff_right ⟨hp, hl⟩, and_iff_left hh]

theorem join_of_isAbsolute (hq : q.isAbsolute = true) : p.join q = q := by
  rw [join, if_pos hq]

theorem IsNormal.join (hp : p.IsNormal) (hq : q.IsNormal) : (p.join q).IsNormal := by
  cases ha : q.isAbsolute with
  | true => rwa [join_of_isAbsolute ha]
  | false => exact (isNormal_join_iff hp ha).mpr hq

theorem notMem_join (hc : c ≠ '/') (hp : c ∉ p.text.toList) (hq : c ∉ q.text.toList) :
    c ∉ (p.join q).text.toList := by
  rw [Path.join]
  split
  · exact hq
  split
  · exact hq
  · rw [String.toList_append, List.mem_append, not_or]
    exact ⟨hp, hq⟩
  · rw [String.toList_append, String.toList_append, List.mem_append, List.mem_append, not_or,
      not_or]
    exact ⟨⟨hp, fun h => hc (List.mem_singleton.mp h)⟩, hq⟩

theorem isSpaced_cons_join_drop (hp : p.IsNormal) {k : Nat} (hk : k < p.segments.length) :
    IsSpaced '/' ('/' :: ['/'].intercalate (p.segments.drop k)) ↔
      ¬ (k = 0 ∧ p.isAbsolute = true) := by
  have hp : IsSpaced '/' p.text.toList := hp
  cases k with
  | zero =>
    rw [List.drop_zero, intercalate_segments, isSpaced_cons, and_iff_right hp, and_iff_right rfl,
      isAbsolute, beq_iff_eq]
  | succ k =>
    have ht : p.segments.take (k + 1) ≠ [] := by simp [p.segments_ne_nil]
    have hd : p.segments.drop (k + 1) ≠ [] := by
      rw [ne_eq, List.drop_eq_nil_iff]
      exact Nat.not_le_of_lt hk
    refine iff_of_true (IsSpaced.mono hp ?_) fun h => absurd h.1 k.succ_ne_zero
    rw [← intercalate_segments p, ← List.take_append_drop (k + 1) p.segments,
      intercalate_append ht hd, List.take_append_drop]
    exact (List.suffix_append _ _).isInfix

end EndpointCatalog.Path
