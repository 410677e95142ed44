import EndpointCatalog.Proofs.Path.Extension

namespace EndpointCatalog.Path

open Text.Blank Text.Search

variable {p q : Path} {ss ks : List (List Char)}

theorem components_ofSegments (h : ∀ k ∈ ks, '/' ∉ k) :
    (ofSegments ks).components = componentsOf ks := by
  by_cases hn : ks = []
  · subst hn
    rfl
  · rw [components_eq, segments_ofSegments hn h]

theorem componentsOf_of_head? (h : ∀ s ∈ ss.head?, s ≠ [] ∧ s ≠ ['.']) :
    componentsOf ss = ss.filterMap component? := by
  cases ss with
  | nil => rfl
  | cons s ss =>
    obtain ⟨hs, hd⟩ := h s rfl
    rw [componentsOf_cons (.inl hs), lead, if_neg hs, if_neg hd, List.filterMap_cons]
    cases component? s <;> rfl

/-- A path that begins neither with the root nor with `.` has the components of its segments. -/
theorem components_of_relative (ha : p.isAbsolute = false) (hh : p.segments.head? ≠ some ['.']) :
    p.components = p.segments.filterMap component? := by
  rw [components_eq]
  obtain ⟨s, ss, hs⟩ := List.exists_cons_of_ne_nil p.segments_ne_nil
  by_cases he : s = []
  · subst he
    have hn : ss = [] := by
      by_contra hn
      rw [isAbsolute_iff.mpr ⟨ss, hn, hs⟩] at ha
      cases ha
    rw [hs, hn]
    rfl
  · apply componentsOf_of_head?
    intro t ht
    rw [hs, List.head?_cons] at ht hh
    obtain rfl := Option.some.inj ht
    refine ⟨he, ?_⟩
    rintro rfl
    exact hh rfl

theorem components_join_of_relative (ha : q.isAbsolute = false) (hh : q.segments.head? ≠ some ['.'])
    (p : Path) : (p.join q).components = p.components ++ q.segments.filterMap component? := by
  by_cases hp : p.text = ""
  · have hc : p.components = [] := by
      rw [components_eq, segments, hp]
      rfl
    rw [join_of_text_eq hp ha, components_of_relative ha hh, hc, List.nil_append]
  · exact components_join_relative hp ha

theorem exists_names (h : ∀ s ∈ ss, '/' ∉ s ∧ s ≠ ['.', '.']) :
    ∃ ns : List String, ss.filterMap component? = ns.map .name ∧ ∀ n ∈ ns, IsName n := by
  induction ss with
  | nil => exact ⟨[], rfl, List.forall_mem_nil _⟩
  | cons s ss ih =>
    obtain ⟨⟨hs, hu⟩, hss⟩ := List.forall_mem_cons.mp h
    obtain ⟨ns, hns, hn⟩ := ih hss
    by_cases he : s = [] ∨ s = ['.']
    · refine ⟨ns, ?_, hn⟩
      rw [List.filterMap_cons_none (component?_eq_none.mpr he), hns]
    · have hc : component? s = some (.name (String.ofList s)) := by
        rw [component?, if_neg he, if_neg hu]
      refine ⟨String.ofList s :: ns, ?_, ?_⟩
      · rw [List.filterMap_cons_some hc, hns, List.map_cons]
      · exact List.forall_mem_cons.mpr ⟨(isName_of_component? hc hs).2, hn⟩

theorem exists_trimSegments (ss : List (List Char)) :
    ∃ rest, ss = trimSegments ss ++ rest ∧ rest.filterMap component? = [] := by
  induction ss using List.reverseRecOn with
  | nil => exact ⟨[], rfl, rfl⟩
  | append_singleton ss s ih =>
    rw [trimSegments_concat]
    split
    · rename_i hs
      obtain ⟨rest, hr, he⟩ := ih
      refine ⟨rest ++ [s], ?_, ?_⟩
      · rw [← List.append_assoc, ← hr]
      · rw [List.filterMap_append, he, List.filterMap_cons_none hs]
        rfl
    · exact ⟨[], (List.append_nil _).symm, rfl⟩

theorem filterMap_trimSegments (ss : List (List Char)) :
    (trimSegments ss).filterMap component? = ss.filterMap component? := by
  obtain ⟨rest, hr, he⟩ := exists_trimSegments ss
  conv_rhs => rw [hr, List.filterMap_append, he, List.append_nil]

theorem isPrefix_trimSegments (ss : List (List Char)) : trimSegments ss <+: ss := by
  obtain ⟨rest, hr, -⟩ := exists_trimSegments ss
  exact ⟨rest, hr.symm⟩

theorem filterMap_of_initSegments?_eq_none (h : initSegments? ss = none) :
    ss.filterMap component? = [] := by
  rw [initSegments?] at h
  split at h
  · rename_i ht
    rw [← filterMap_trimSegments, ht]
    rfl
  · cases h

theorem initSegments?_eq_some (h : initSegments? ss = some ks) :
    ks <+: ss ∧ ∃ c, ss.filterMap component? = ks.filterMap component? ++ [c] := by
  obtain hn | ⟨front, s, c, rest, rfl, hc, hr, ht⟩ := trimSegments_cases ss
  · have ht : trimSegments ss = [] := by
      rw [trimSegments, List.dropWhile_eq_nil_iff.mpr, List.reverse_nil]
      intro r hr
      rw [hn r (List.mem_reverse.mp hr)]
      rfl
    rw [initSegments?, ht] at h
    cases h
  · obtain ⟨t, ts, he⟩ := List.exists_cons_of_ne_nil (List.concat_ne_nil s front)
    rw [initSegments?, ht, he] at h
    dsimp only at h
    rw [← he, List.dropLast_concat] at h
    obtain rfl := Option.some.inj h
    refine ⟨(isPrefix_trimSegments front).trans (List.prefix_append _ _), c, ?_⟩
    rw [filterMap_trimSegments, List.filterMap_append, List.filterMap_cons_some hc,
      List.filterMap_eq_nil_iff.mpr hr]

theorem components_rooted (h : ∀ k ∈ ks, '/' ∉ k) :
    (if ks.isEmpty then ⟨"/"⟩ else ofSegments ([] :: ks)).components =
      .root :: ks.filterMap component? := by
  split
  · rename_i he
    rw [List.isEmpty_iff.mp he]
    rfl
  · rename_i he
    have hn : ks ≠ [] := mt List.isEmpty_iff.mpr he
    rw [components_ofSegments (List.forall_mem_cons.mpr ⟨List.not_mem_nil, h⟩),
      componentsOf_cons (.inr hn)]
    rfl

theorem components_of_parent? (h : p.parent? = some q) :
    ∃ c, p.components = q.components ++ [c] := by
  have hn : ∀ s ∈ p.segments, '/' ∉ s := fun _ => notMem_of_mem_splitOn
  rw [components_eq]
  rw [parent?] at h
  -- a path begins with the root, with `.` or with a segment that is neither
  split at h
  · rename_i s ss hs
    rw [hs] at hn ⊢
    obtain ⟨ks, hk, rfl⟩ := Option.map_eq_some_iff.mp h
    obtain ⟨hp, c, hc⟩ := initSegments?_eq_some hk
    have hks : ∀ k ∈ ks, '/' ∉ k := fun k hm => hn k (List.mem_cons_of_mem _ (hp.subset hm))
    refine ⟨c, ?_⟩
    rw [components_rooted hks, componentsOf_cons (.inr (List.cons_ne_nil _ _)), hc]
    rfl
  · rename_i ss hs
    have hd : ['.'] ≠ [] := List.cons_ne_nil _ _
    rw [hs] at hn ⊢
    rw [componentsOf_cons (.inl hd)]
    split at h
    · rename_i ks hk
      obtain ⟨hp, c, hc⟩ := initSegments?_eq_some hk
      have hks : ∀ k ∈ ks, '/' ∉ k := fun k hm => hn k (List.mem_cons_of_mem _ (hp.subset hm))
      have hd' : '/' ∉ ['.'] := hn _ List.mem_cons_self
      obtain rfl := Option.some.inj h
      refine ⟨c, ?_⟩
      rw [components_ofSegments (List.forall_mem_cons.mpr ⟨hd', hks⟩), componentsOf_cons (.inl hd),
        hc, List.append_assoc]
    · rename_i hk
      obtain rfl := Option.some.inj h
      refine ⟨.here, ?_⟩
      rw [filterMap_of_initSegments?_eq_none hk]
      rfl
  · rename_i hr hd
    obtain ⟨ks, hk, rfl⟩ := Option.map_eq_some_iff.mp h
    obtain ⟨hp, c, hc⟩ := initSegments?_eq_some hk
    have hh : ∀ s ∈ p.segments.head?, s ≠ [] ∧ s ≠ ['.'] := by
      intro s hs
      obtain ⟨ss, hs⟩ := List.head?_eq_some_iff.mp hs
      constructor
      · rintro rfl
        cases ss with
        | nil =>
          rw [hs] at hc
          exact absurd hc.symm (List.concat_ne_nil _ _)
        | cons t ts => exact hr t ts hs
      · rintro rfl
        exact hd ss hs
    have hhk : ∀ s ∈ ks.head?, s ≠ [] ∧ s ≠ ['.'] := by
      intro s hs
      obtain ⟨rest, hrest⟩ := hp
      apply hh
      rw [← hrest, List.head?_append, Option.mem_def.mp hs]
      rfl
    refine ⟨c, ?_⟩
    rw [components_ofSegments fun k hm => hn k (hp.subset hm), componentsOf_of_head? hh,
      componentsOf_of_head? hhk, hc]

theorem components_of_ancestor? {n : Nat} (h : p.ancestor? n = some q) :
    ∃ tail, p.components = q.components ++ tail ∧ tail.length = n := by
  induction n generalizing p with
  | zero =>
    obtain rfl := Option.some.inj h
    exact ⟨[], (List.append_nil _).symm, rfl⟩
  | succ n ih =>
    obtain ⟨r, hr, hq⟩ := Option.bind_eq_some_iff.mp h
    obtain ⟨c, hc⟩ := components_of_parent? hr
    obtain ⟨tail, ht, hl⟩ := ih hq
    refine ⟨tail ++ [c], ?_, ?_⟩
    · rw [hc, ht, List.append_assoc]
    · rw [List.length_append, hl, List.length_singleton]

end EndpointCatalog.Path
