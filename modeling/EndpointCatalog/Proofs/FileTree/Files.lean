import EndpointCatalog.Proofs.FileTree.Content
import EndpointCatalog.Proofs.Path.Join
import Mathlib.Data.List.Nodup

namespace EndpointCatalog.FileTree

open EndpointCatalog.Path (IsName)

/-- Whether the entries of each directory have different names that a path can spell. -/
inductive IsProper : FileTree → Prop where
  | file (b : Text.Bytes) : IsProper (.file b)
  | dir {es : List (String × FileTree)} (nodup : (es.map (·.1)).Nodup)
      (names : ∀ e ∈ es, IsName e.1) (entries : ∀ e ∈ es, IsProper e.2) : IsProper (.dir es)

theorem lookup_eq_some {es : List (String × FileTree)} (h : (es.map (·.1)).Nodup) {n : String}
    {t : FileTree} : es.lookup n = some t ↔ (n, t) ∈ es := by
  induction es with
  | nil => simp
  | cons e es ih =>
    obtain ⟨m, s⟩ := e
    obtain ⟨hm, hes⟩ := List.nodup_cons.mp h
    by_cases hn : n = m
    · subst hn
      rw [List.lookup_cons_self, List.mem_cons, Prod.mk.injEq, Option.some.injEq]
      have ht : (n, t) ∉ es := fun he => hm (List.mem_map_of_mem (f := (·.1)) he)
      exact ⟨fun he => .inl ⟨rfl, he.symm⟩, fun he => (he.resolve_right ht).2.symm⟩
    · rw [List.lookup_cons, beq_eq_false_iff_ne.mpr hn, ih hes, List.mem_cons, Prod.mk.injEq]
      exact (or_iff_right fun he => hn he.1).symm

/-- The order of a directory's entries does not matter. -/
theorem same_of_perm {es fs : List (String × FileTree)} (hp : es.Perm fs)
    (hn : (es.map (·.1)).Nodup) : (dir es).Same (dir fs) := by
  intro place
  cases place with
  | nil => rfl
  | cons n ns =>
    have hl : es.lookup n = fs.lookup n := by
      refine Option.ext fun t => ?_
      rw [lookup_eq_some hn, lookup_eq_some ((hp.map _).nodup_iff.mp hn), hp.mem_iff]
    rw [contentAt?, contentAt?, get?, get?, hl]

theorem filesIn_eq_flatMap (skip : String → Bool) (es : List (String × FileTree)) :
    filesIn skip es =
      es.flatMap fun e => if skip e.1 then [] else (files skip e.2).map (e.1 :: ·) := by
  induction es with
  | nil => rfl
  | cons e es ih =>
    rw [filesIn, ih, List.flatMap_cons]

variable {skip : String → Bool} {t u : FileTree}

/-- A file is listed unless one of its names is passed over. -/
theorem mem_files (ht : t.IsProper) {ns : List String} :
    ns ∈ t.files skip ↔ (∃ b, t.get? ns = some (.file b)) ∧ ∀ n ∈ ns, skip n = false := by
  induction ht generalizing ns with
  | file b => cases ns <;> simp [files, get?]
  | @dir es hd _ _ ih =>
    rw [files, filesIn_eq_flatMap, List.mem_flatMap]
    -- the first name chooses an entry, and no other entry has it
    cases ns with
    | nil =>
      refine iff_of_false ?_ (by simp [get?])
      rintro ⟨e, -, he⟩
      split at he <;> simp at he
    | cons n ns =>
      rw [get?, List.forall_mem_cons]
      constructor
      · rintro ⟨⟨m, s⟩, he, hm⟩
        split at hm
        · exact absurd hm List.not_mem_nil
        · rename_i hs
          obtain ⟨ms, hms, hc⟩ := List.mem_map.mp hm
          obtain ⟨rfl, rfl⟩ := List.cons.inj hc
          obtain ⟨hb, hn⟩ := (ih _ he).mp hms
          rw [(lookup_eq_some hd).mpr he]
          exact ⟨hb, Bool.eq_false_iff.mpr hs, hn⟩
      · rintro ⟨⟨b, hb⟩, hs, hn⟩
        obtain ⟨s, hl, hg⟩ := Option.bind_eq_some_iff.mp hb
        have he : (n, s) ∈ es := (lookup_eq_some hd).mp hl
        refine ⟨(n, s), he, ?_⟩
        rw [if_neg (by rw [hs]; exact Bool.false_ne_true)]
        exact List.mem_map_of_mem ((ih _ he).mpr ⟨⟨b, hg⟩, hn⟩)

theorem nodup_files (ht : t.IsProper) : (t.files skip).Nodup := by
  induction ht with
  | file b => exact List.nodup_singleton []
  | @dir es hd _ _ ih =>
    rw [files, filesIn_eq_flatMap, List.nodup_flatMap]
    constructor
    · intro e he
      split
      · exact List.nodup_nil
      · exact (ih e he).map fun _ _ h => (List.cons.inj h).2
    · refine (List.pairwise_map.mp hd).imp fun {d e} hne => ?_
      have hh : ∀ {e : String × FileTree} {ns : List String},
          ns ∈ (if skip e.1 then [] else (files skip e.2).map (e.1 :: ·)) →
            ns.head? = some e.1 := by
        intro e ns hm
        split at hm
        · exact absurd hm List.not_mem_nil
        · obtain ⟨ms, -, rfl⟩ := List.mem_map.mp hm
          rfl
      intro ns hd he
      exact hne (Option.some.inj ((hh hd).symm.trans (hh he)))

theorem files_perm (skip : String → Bool) (ht : t.IsProper) (hu : u.IsProper) (h : t.Same u) :
    (t.files skip).Perm (u.files skip) := by
  refine (List.perm_ext_iff_of_nodup (nodup_files ht) (nodup_files hu)).mpr fun ns => ?_
  have hb : ∀ b, t.get? ns = some (.file b) ↔ u.get? ns = some (.file b) := fun b => by
    rw [← contentAt?_eq_file, h ns, contentAt?_eq_file]
  simp only [mem_files ht, mem_files hu, hb]

theorem isProper_of_get? (ht : t.IsProper) {ns : List String} {s : FileTree}
    (h : t.get? ns = some s) : s.IsProper ∧ ∀ n ∈ ns, IsName n := by
  induction ns generalizing t with
  | nil =>
    obtain rfl := Option.some.inj h
    exact ⟨ht, List.forall_mem_nil _⟩
  | cons n ns ih =>
    cases ht with
    | file b => cases h
    | dir hd hn he =>
      obtain ⟨v, hl, hg⟩ := Option.bind_eq_some_iff.mp h
      have hv := (lookup_eq_some hd).mp hl
      obtain ⟨hs, hns⟩ := ih (he _ hv) hg
      exact ⟨hs, List.forall_mem_cons.mpr ⟨hn _ hv, hns⟩⟩

end EndpointCatalog.FileTree
