import EndpointCatalog.Proofs.Path.Join
import Mathlib.Data.List.Induction
import Mathlib.Data.List.TakeWhile

namespace EndpointCatalog.Path

open Text.Blank Text.Search

variable {p : Path} {n : String} {s e : List Char} {ss front rest : List (List Char)}
  {c : Component}

theorem component?_eq_none : component? s = none ↔ s = [] ∨ s = ['.'] := by
  rw [component?]
  split
  · rename_i h
    exact iff_of_true rfl h
  · rename_i h
    refine iff_of_false ?_ h
    split <;> exact Option.some_ne_none _

theorem isName_of_component? (h : component? s = some (.name n)) (hs : '/' ∉ s) :
    s = n.toList ∧ IsName n := by
  obtain rfl := toList_of_component? h
  have hn : n.toList ≠ [] ∧ n.toList ≠ ['.'] := by
    rw [← not_or, ← component?_eq_none, h]
    nofun
  refine ⟨rfl, ?_, ?_, ?_, hs⟩
  · rintro rfl
    exact hn.1 rfl
  · rintro rfl
    exact hn.2 rfl
  · rintro rfl
    cases h

/-- The last component is that of the last segment that counts. -/
theorem getLast?_componentsOf (hc : component? s = some c) (hr : ∀ r ∈ rest, component? r = none) :
    (componentsOf (front ++ s :: rest)).getLast? = some c := by
  have hn : s ≠ [] ∧ s ≠ ['.'] := by
    rw [← not_or, ← component?_eq_none, hc]
    nofun
  have hf : ∀ ts : List (List Char), (ts ++ s :: rest).filterMap component? =
      ts.filterMap component? ++ [c] := fun ts => by
    rw [List.filterMap_append, List.filterMap_cons_some hc, List.filterMap_eq_nil_iff.mpr hr]
  cases front with
  | nil =>
    rw [List.nil_append, componentsOf_cons (.inl hn.1), List.filterMap_eq_nil_iff.mpr hr, lead,
      if_neg hn.1, if_neg hn.2, hc]
    rfl
  | cons f front =>
    rw [List.cons_append, componentsOf_cons (.inr (by simp)), hf, ← List.append_assoc,
      List.getLast?_concat]

theorem getLast?_componentsOf_ne (h : ∀ r ∈ ss, component? r = none) :
    (componentsOf ss).getLast? ≠ some (.name n) := by
  cases ss with
  | nil => nofun
  | cons s ss =>
    obtain ⟨hs, hss⟩ := List.forall_mem_cons.mp h
    have hl : (componentsOf (s :: ss)).getLast? = (lead s).getLast? ∨ s :: ss = [[]] := by
      refine Decidable.or_iff_not_imp_right.mpr fun hn => ?_
      have hn : s ≠ [] ∨ ss ≠ [] := Decidable.or_iff_not_imp_left.mpr fun hs hss => hn <| by
        rw [hss, Decidable.not_not.mp hs]
      rw [componentsOf_cons hn, List.filterMap_eq_nil_iff.mpr hss, List.append_nil]
    obtain hl | hl := hl
    · rw [hl]
      obtain rfl | rfl := component?_eq_none.mp hs <;> nofun
    · rw [hl]
      nofun

theorem trimSegments_concat (ss : List (List Char)) (s : List Char) :
    trimSegments (ss ++ [s]) = if component? s = none then trimSegments ss else ss ++ [s] := by
  rw [trimSegments, List.reverse_concat, List.dropWhile_cons]
  cases hc : component? s with
  | none => rfl
  | some c => exact (List.reverse_cons ..).trans (by rw [List.reverse_reverse]; rfl)

theorem trimSegments_cases (ss : List (List Char)) :
    (∀ r ∈ ss, component? r = none) ∨
      ∃ front s c rest, ss = front ++ s :: rest ∧ component? s = some c ∧
        (∀ r ∈ rest, component? r = none) ∧ trimSegments ss = front ++ [s] := by
  induction ss using List.reverseRecOn with
  | nil => exact .inl (List.forall_mem_nil _)
  | append_singleton ss s ih =>
    rw [trimSegments_concat]
    cases hc : component? s with
    | some c => exact .inr ⟨ss, s, c, [], rfl, hc, List.forall_mem_nil _, rfl⟩
    | none =>
      rw [if_pos rfl]
      refine ih.imp (fun h => ?_) ?_
      · exact List.forall_mem_append.mpr ⟨h, List.forall_mem_singleton.mpr hc⟩
      · rintro ⟨front, t, c, rest, rfl, ht, hr, hs⟩
        exact ⟨front, t, c, rest ++ [s], by simp, ht,
          List.forall_mem_append.mpr ⟨hr, List.forall_mem_singleton.mpr hc⟩, hs⟩

theorem segments_of_fileName? (h : p.fileName? = some n) :
    ∃ front rest, p.segments = front ++ n.toList :: rest ∧
      trimSegments p.segments = front ++ [n.toList] ∧
      (∀ r ∈ rest, r = [] ∨ r = ['.']) ∧ IsName n := by
  have hl : (componentsOf p.segments).getLast? = some (.name n) := by
    rw [fileName?, components_eq] at h
    split at h
    · rename_i s hs
      rw [hs, Option.some.inj h]
    · cases h
  obtain hn | ⟨front, s, c, rest, hs, hc, hr, ht⟩ := trimSegments_cases p.segments
  · exact absurd hl (getLast?_componentsOf_ne hn)
  · rw [hs, getLast?_componentsOf hc hr] at hl
    obtain rfl := Option.some.inj hl
    have hm : s ∈ p.segments := by simp [hs]
    obtain ⟨rfl, hn⟩ := isName_of_component? hc (notMem_of_mem_splitOn hm)
    exact ⟨front, rest, hs, ht, fun r h => component?_eq_none.mp (hr r h), hn⟩

theorem stem_append (he : '.' ∉ e) (s : List Char) :
    stem (s ++ '.' :: e) = if s = [] then '.' :: e else s := by
  have hd : ((s ++ '.' :: e).reverse.dropWhile (· ≠ '.')).drop 1 = s.reverse := by
    rw [List.reverse_append, List.reverse_cons, List.append_assoc, List.singleton_append,
      List.dropWhile_append_of_pos fun c hc => by simpa using ne_of_mem_of_not_mem hc (by simpa),
      List.dropWhile_cons_of_neg (by simp)]
    rfl
  rw [stem, hd]
  cases s with
  | nil => rfl
  | cons c s => simp

theorem stem_eq (s : List Char) : stem s = s ∨ ∃ e, s = stem s ++ '.' :: e ∧ '.' ∉ e := by
  by_cases hs : '.' ∈ s.reverse
  · obtain ⟨e, x, hx, he⟩ := List.eq_append_cons_of_mem hs
    have he' : '.' ∉ e.reverse := by simpa using he
    have hx' : s = x.reverse ++ '.' :: e.reverse := by
      rw [← List.reverse_reverse s, hx]
      simp
    rw [hx', stem_append he']
    split
    · rename_i hn
      exact .inl (by rw [hn]; rfl)
    · exact .inr ⟨e.reverse, rfl, he'⟩
  · refine .inl ?_
    have hd : s.reverse.dropWhile (· ≠ '.') = [] :=
      by
      rw [← List.append_nil s.reverse,
        List.dropWhile_append_of_pos fun c hc => by simpa using ne_of_mem_of_not_mem hc hs]
      rfl
    rw [stem, hd]
    rfl

theorem stem_append_ne (he : '.' ∈ e) (s : List Char) : stem s ++ '.' :: e ≠ s := by
  intro h
  obtain hs | ⟨f, hs, hf⟩ := stem_eq s
  · rw [hs] at h
    exact absurd h (by simp)
  · have hfe := (List.cons.inj (List.append_cancel_left (h.trans hs))).2
    exact hf (hfe ▸ he)

theorem slash_notMem_stem (h : '/' ∉ s) : '/' ∉ stem s := by
  obtain hs | ⟨e, hs, -⟩ := stem_eq s
  · rwa [hs]
  · rw [hs] at h
    exact fun hm => h (List.mem_append_left _ hm)

theorem segments_ofSegments (hn : ss ≠ []) (h : ∀ s ∈ ss, '/' ∉ s) :
    (ofSegments ss).segments = ss := by
  rw [segments, ofSegments, String.toList_ofList]
  exact List.splitOn_intercalate '/' h hn

/-- A path and the same path with another extension differ from the file name on. -/
theorem segments_withExtension {e : String} (h : p.fileName? = some n) (he : '/' ∉ e.toList) :
    ∃ front rest, p.segments = front ++ n.toList :: rest ∧
      (p.withExtension e).segments = front ++ [stem n.toList ++ '.' :: e.toList] ∧
      (∀ r ∈ rest, r = [] ∨ r = ['.']) ∧ IsName n := by
  obtain ⟨front, rest, hs, ht, hr, hn⟩ := segments_of_fileName? h
  refine ⟨front, rest, hs, ?_, hr, hn⟩
  have hw : p.withExtension e = ofSegments (front ++ [stem n.toList ++ '.' :: e.toList]) := by
    rw [withExtension, h, ht]
    simp
  rw [hw]
  refine segments_ofSegments (by simp) (List.forall_mem_append.mpr ⟨fun w hw => ?_, ?_⟩)
  · exact notMem_of_mem_splitOn (hs ▸ List.mem_append_left _ hw)
  · have hd : '/' ∉ '.' :: e.toList := by
      rw [List.mem_cons, not_or]
      exact ⟨by decide, he⟩
    rw [List.forall_mem_singleton, List.mem_append, not_or]
    exact ⟨slash_notMem_stem hn.2.2.2, hd⟩

theorem isAbsolute_iff : p.isAbsolute = true ↔ ∃ ss, ss ≠ [] ∧ p.segments = [] :: ss := by
  rw [isAbsolute, segments, beq_iff_eq]
  cases p.text.toList with
  | nil =>
    refine iff_of_false (Option.some_ne_none _).symm ?_
    rintro ⟨ss, hn, h⟩
    exact hn (List.cons.inj h).2.symm
  | cons c cs =>
    rw [List.head?_cons, Option.some.injEq, List.splitOn_cons_eq_if_modifyHead]
    by_cases hc : c = '/'
    · subst hc
      rw [if_pos (beq_self_eq_true _)]
      exact iff_of_true rfl ⟨_, List.splitOn_ne_nil _ cs, rfl⟩
    · rw [if_neg (by simpa using hc)]
      obtain ⟨s, ss, hs⟩ := List.exists_cons_of_ne_nil (List.splitOn_ne_nil '/' cs)
      rw [hs]
      refine iff_of_false hc ?_
      rintro ⟨ts, -, h⟩
      cases h

theorem isAbsolute_withExtension {e : String} (h : p.fileName? = some n) (he : '/' ∉ e.toList) :
    (p.withExtension e).isAbsolute = p.isAbsolute := by
  obtain ⟨front, rest, hp, hq, -, hn⟩ := segments_withExtension h he
  have hn : n.toList ≠ [] := fun h => hn.1 (String.toList_inj.mp h)
  rw [Bool.eq_iff_iff, isAbsolute_iff, isAbsolute_iff, hp, hq]
  cases front with
  | nil => simp [hn]
  | cons f front => simp

end EndpointCatalog.Path
