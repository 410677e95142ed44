import EndpointCatalog.Catalog.Survey
import EndpointCatalog.Proofs.Path.Components

namespace EndpointCatalog.Path

open Text.Blank Text.Search

/-- Whether a text can name an entry of a directory. -/
def IsName (s : String) : Prop := s ≠ "" ∧ s ≠ "." ∧ s ≠ ".." ∧ '/' ∉ s.toList

instance (s : String) : Decidable (IsName s) := inferInstanceAs (Decidable (_ ∧ _))

def componentsOf : List (List Char) → List Component
  | [] :: s :: ss => .root :: (s :: ss).filterMap component?
  | ['.'] :: ss => .here :: ss.filterMap component?
  | ss => ss.filterMap component?

theorem components_eq (p : Path) : p.components = componentsOf p.segments := rfl

def lead (s : List Char) : List Component :=
  if s = [] then [.root] else if s = ['.'] then [.here] else (component? s).toList

theorem componentsOf_cons {s : List Char} {ss : List (List Char)} (h : s ≠ [] ∨ ss ≠ []) :
    componentsOf (s :: ss) = lead s ++ ss.filterMap component? := by
  by_cases hs : s = []
  · subst hs
    obtain ⟨t, ts, rfl⟩ := List.exists_cons_of_ne_nil (h.resolve_left (absurd rfl))
    rfl
  by_cases hd : s = ['.']
  · subst hd
    rfl
  · rw [lead, if_neg hs, if_neg hd, componentsOf]
    · cases hc : component? s <;> simp [hc]
    · exact fun _ _ h => hs (List.cons.inj h).1
    · exact fun _ h => hd (List.cons.inj h).1

theorem componentsOf_append {ss ts : List (List Char)} (h : ss ≠ []) (ht : ts ≠ []) :
    componentsOf (ss ++ ts) = componentsOf (ss ++ [[]]) ++ ts.filterMap component? := by
  obtain ⟨s, ss, rfl⟩ := List.exists_cons_of_ne_nil h
  have hn : ∀ vs : List (List Char), vs ≠ [] → s ≠ [] ∨ ss ++ vs ≠ [] := fun vs hv =>
    .inr (List.append_ne_nil_of_right_ne_nil ss hv)
  have he : [([] : List Char)].filterMap component? = [] := rfl
  rw [List.cons_append, List.cons_append, componentsOf_cons (hn ts ht),
    componentsOf_cons (hn [[]] (List.cons_ne_nil _ _)), List.filterMap_append,
    List.filterMap_append, he, List.append_nil, List.append_assoc]

theorem componentsOf_concat_nil {ss : List (List Char)} (h : ss ≠ [[]]) :
    componentsOf (ss ++ [[]]) = componentsOf ss := by
  cases ss with
  | nil => rfl
  | cons s ss =>
    have hs : s ≠ [] ∨ ss ≠ [] := Decidable.or_iff_not_imp_left.mpr fun hs hss => h <| by
      rw [hss, Decidable.not_not.mp hs]
    have hn : s ≠ [] ∨ ss ++ [[]] ≠ [] := hs.imp_right (List.append_ne_nil_of_left_ne_nil · _)
    have he : [([] : List Char)].filterMap component? = [] := rfl
    rw [List.cons_append, componentsOf_cons hn, componentsOf_cons hs, List.filterMap_append, he,
      List.append_nil]

variable {p q : Path} {n : String}

theorem component?_name (h : IsName n) : component? n.toList = some (.name n) := by
  obtain ⟨he, hd, hu, -⟩ := h
  have he' : n.toList ≠ [] := fun h => he (String.toList_inj.mp h)
  have hd' : n.toList ≠ ['.'] := fun h => hd (String.toList_inj.mp h)
  have hu' : n.toList ≠ ['.', '.'] := fun h => hu (String.toList_inj.mp h)
  rw [component?, if_neg (not_or.mpr ⟨he', hd'⟩), if_neg hu', String.ofList_toList]

theorem isAbsolute_name (h : IsName n) : isAbsolute ⟨n⟩ = false := by
  rw [isAbsolute, beq_eq_false_iff_ne]
  exact fun hh => h.2.2.2 (List.mem_of_mem_head? hh)

theorem segments_ne_nil (p : Path) : p.segments ≠ [] := List.splitOn_ne_nil _ _

theorem segments_name (h : IsName n) : segments ⟨n⟩ = [n.toList] :=
  List.splitOn_eq_singleton h.2.2.2

theorem join_of_text_eq (hp : p.text = "") (hq : q.isAbsolute = false) : p.join q = q := by
  rw [join, hq, hp]
  rfl

theorem toList_join (hp : p.text ≠ "") (hq : q.isAbsolute = false) :
    ∃ x, (p.join q).text.toList = x ++ '/' :: q.text.toList ∧
      (p.text.toList = x ∨ p.text.toList = x ++ ['/']) := by
  rw [join, hq, if_neg Bool.false_ne_true]
  split
  · rename_i h
    exact absurd (String.toList_inj.mp (List.getLast?_eq_none_iff.mp h)) hp
  · rename_i h
    obtain ⟨x, hx⟩ := List.getLast?_eq_some_iff.mp h
    exact ⟨x, by rw [String.toList_append, hx, List.append_assoc, List.singleton_append], .inr hx⟩
  · refine ⟨p.text.toList, ?_, .inl rfl⟩
    rw [String.toList_append, String.toList_append, List.append_assoc]
    rfl

theorem segments_join (hp : p.text ≠ "") (hq : q.isAbsolute = false) :
    ∃ ss, ss ≠ [] ∧ (p.join q).segments = ss ++ q.segments ∧
      (p.segments = ss ∨ p.segments = ss ++ [[]]) ∧ componentsOf (ss ++ [[]]) = p.components := by
  obtain ⟨x, hj, hx⟩ := toList_join hp hq
  refine ⟨x.splitOn '/', List.splitOn_ne_nil _ _, ?_, ?_⟩
  · rw [segments, hj, List.splitOn_append_cons_self]
    rfl
  obtain hx | hx := hx
  · have hn : x.splitOn '/' ≠ [[]] := by
      intro h
      have hj : ['/'].intercalate (x.splitOn '/') = x := List.intercalate_splitOn '/'
      rw [h, ← hx] at hj
      exact hp (String.toList_inj.mp hj.symm)
    refine ⟨.inl (by rw [segments, hx]), ?_⟩
    rw [componentsOf_concat_nil hn, components_eq, segments, hx]
  · have hs : p.segments = x.splitOn '/' ++ [[]] := by
      rw [segments, hx, List.splitOn_append_cons_self]
      rfl
    exact ⟨.inr hs, by rw [components_eq, hs]⟩

theorem components_join_relative (hp : p.text ≠ "") (hq : q.isAbsolute = false) :
    (p.join q).components = p.components ++ q.segments.filterMap component? := by
  obtain ⟨ss, hs, hj, -, hc⟩ := segments_join hp hq
  rw [components_eq, hj, componentsOf_append hs q.segments_ne_nil, hc]

theorem components_join (hp : p.text ≠ "") (hn : IsName n) :
    (p.join ⟨n⟩).components = p.components ++ [.name n] := by
  have hc : [n.toList].filterMap component? = [.name n] := by
    rw [List.filterMap_cons_some (component?_name hn), List.filterMap_nil]
  rw [components_join_relative hp (isAbsolute_name hn), segments_name hn, hc]

theorem text_ne_of_name {s : String} (h : Component.name s ∈ p.components) : p.text ≠ "" := by
  intro he
  have hc : p.components = [] := by
    rw [components_eq, segments, he]
    rfl
  rw [hc] at h
  exact List.not_mem_nil h

theorem components_below {ns : List String} (hp : p.text ≠ "") (hn : ∀ n ∈ ns, IsName n) :
    (Survey.below p ns).components = p.components ++ ns.map .name := by
  induction ns generalizing p with
  | nil => exact (List.append_nil _).symm
  | cons n ns ih =>
    obtain ⟨hn, hns⟩ := List.forall_mem_cons.mp hn
    have hj := components_join hp hn
    have ht : (p.join ⟨n⟩).text ≠ "" := text_ne_of_name (s := n) (by rw [hj]; simp)
    have hb : Survey.below p (n :: ns) = Survey.below (p.join ⟨n⟩) ns := rfl
    rw [hb, ih ht hns, hj, List.append_assoc, List.singleton_append, List.map_cons]

end EndpointCatalog.Path
