import EndpointCatalog.Proofs.FileTree.Files
import EndpointCatalog.Proofs.FileTree.Write

namespace EndpointCatalog

open EndpointCatalog.Path (IsName)
open Survey (below)

namespace Path

variable {p q : Path} {n : String} {ns : List String}

theorem isAbsolute_join (hp : p.text ≠ "") (hq : q.isAbsolute = false) :
    (p.join q).isAbsolute = p.isAbsolute := by
  obtain ⟨x, hj, hx⟩ := toList_join hp hq
  rw [isAbsolute, isAbsolute, hj]
  obtain hx | hx := hx
  · obtain ⟨c, cs, hc⟩ := List.exists_cons_of_ne_nil fun h => hp (String.toList_inj.mp h)
    rw [← hx, hc]
    rfl
  · rw [hx]
    cases x <;> rfl

theorem text_join_ne (hp : p.text ≠ "") (hn : IsName n) : (p.join ⟨n⟩).text ≠ "" := by
  apply text_ne_of_name (s := n)
  rw [components_join hp hn]
  exact List.mem_append_right _ (List.mem_singleton_self _)

theorem below_cons (p : Path) (n : String) (ns : List String) :
    below p (n :: ns) = below (p.join ⟨n⟩) ns := rfl

theorem text_below_ne (hp : p.text ≠ "") (hn : ∀ n ∈ ns, IsName n) : (below p ns).text ≠ "" := by
  induction ns generalizing p with
  | nil => exact hp
  | cons n ns ih =>
    obtain ⟨hn, hns⟩ := List.forall_mem_cons.mp hn
    exact ih (text_join_ne hp hn) hns

theorem isAbsolute_below (hp : p.text ≠ "") (hn : ∀ n ∈ ns, IsName n) :
    (below p ns).isAbsolute = p.isAbsolute := by
  induction ns generalizing p with
  | nil => rfl
  | cons n ns ih =>
    obtain ⟨hn, hns⟩ := List.forall_mem_cons.mp hn
    rw [below_cons, ih (text_join_ne hp hn) hns, isAbsolute_join hp (isAbsolute_name hn)]

end Path

namespace Workspace

open EndpointCatalog.FileTree EndpointCatalog.Path

variable {w : Workspace} {t s : FileTree} {p q : Path} {n : String} {ns place e : List String}

theorem steps_join (hp : p.text ≠ "") (hq : q.isAbsolute = false) :
    steps (p.join q) = steps p ++ steps q := by
  obtain ⟨ss, -, hj, hs, -⟩ := segments_join hp hq
  have he : steps p = (ss.filter (· ≠ [])).map String.ofList := by
    rw [steps]
    obtain hs | hs := hs <;> simp [hs]
  rw [he, steps, steps, hj, List.filter_append, List.map_append]

theorem steps_name (hn : IsName n) : steps ⟨n⟩ = [n] := by
  have he : n.toList ≠ [] := fun h => hn.1 (String.toList_inj.mp h)
  rw [steps, segments_name hn]
  simp [he]

theorem steps_below (hp : p.text ≠ "") (hn : ∀ n ∈ ns, IsName n) :
    steps (below p ns) = steps p ++ ns := by
  induction ns generalizing p with
  | nil => exact (List.append_nil _).symm
  | cons n ns ih =>
    obtain ⟨hn, hns⟩ := List.forall_mem_cons.mp hn
    rw [below_cons, ih (text_join_ne hp hn) hns, steps_join hp (isAbsolute_name hn), steps_name hn,
      List.append_assoc, List.singleton_append]

theorem endsInSeparator_join (hp : p.text ≠ "") (hn : IsName n) :
    endsInSeparator (p.join ⟨n⟩) = false := by
  obtain ⟨x, hj, -⟩ := toList_join hp (isAbsolute_name hn)
  have he : n.toList ≠ [] := fun h => hn.1 (String.toList_inj.mp h)
  obtain ⟨y, c, hc⟩ := (List.eq_nil_or_concat' n.toList).resolve_left he
  rw [endsInSeparator, hj, hc, ← List.cons_append, ← List.append_assoc, List.getLast?_concat,
    beq_eq_false_iff_ne]
  intro h
  apply hn.2.2.2
  rw [hc, Option.some.inj h]
  exact List.mem_append_right _ (List.mem_singleton_self _)

theorem endsInSeparator_below (hp : p.text ≠ "") (hn : ∀ n ∈ ns, IsName n) (hne : ns ≠ []) :
    endsInSeparator (below p ns) = false := by
  obtain ⟨ms, n, rfl⟩ := (List.eq_nil_or_concat' ns).resolve_left hne
  obtain ⟨hms, hn⟩ := List.forall_mem_append.mp hn
  have hb : below p (ms ++ [n]) = (below p ms).join ⟨n⟩ := List.foldl_concat ..
  rw [hb]
  exact endsInSeparator_join (text_below_ne hp hms) (hn n (List.mem_singleton_self n))

theorem resolve_eq_ok : w.resolve p = .ok (place, t) ↔ p.text ≠ "" ∧
    follow w.tree (w.start p) (steps p) = .ok place ∧ w.tree.get? place = some t ∧
      (t.isDir = false → endsInSeparator p = false) := by
  rw [resolve_eq]
  by_cases hp : p.text = ""
  · simp [hp]
  rw [if_neg hp]
  cases hf : follow w.tree (w.start p) (steps p) with
  | error e => simp [Except.bind]
  | ok d =>
    simp only [Except.bind, Except.ok.injEq]
    cases hg : w.tree.get? d with
    | none =>
      refine iff_of_false nofun ?_
      rintro ⟨-, rfl, h, -⟩
      rw [hg] at h
      cases h
    | some s =>
      cases s with
      | dir es =>
        constructor
        · intro h
          cases h
          exact ⟨hp, rfl, hg, nofun⟩
        · rintro ⟨-, rfl, h, -⟩
          rw [hg] at h
          cases h
          rfl
      | file b =>
        cases he : endsInSeparator p with
        | true =>
          refine iff_of_false nofun ?_
          rintro ⟨-, rfl, h, hs⟩
          rw [hg] at h
          cases h
          cases hs rfl
        | false =>
          constructor
          · intro h
            cases h
            exact ⟨hp, rfl, hg, fun _ => rfl⟩
          · rintro ⟨-, rfl, h, -⟩
            rw [hg] at h
            cases h
            rfl

theorem follow_names (hg : t.get? place = some s) (hn : ∀ n ∈ ns, IsName n) :
    follow t place ns = .ok e ↔ e = place ++ ns ∧ (s.get? ns).isSome := by
  induction ns generalizing place s with
  | nil =>
    rw [follow, Except.ok.injEq, List.append_nil, get?]
    simp [eq_comm]
  | cons n ns ih =>
    obtain ⟨hn, hns⟩ := List.forall_mem_cons.mp hn
    have hd : isDots n = false := isDots_eq_false.mpr ⟨hn.2.1, hn.2.2.1⟩
    cases s with
    | file b =>
      rw [follow, hg]
      simp [get?]
    | dir es =>
      rw [follow_name hd (contentAt?_eq_dir.mpr ⟨es, hg⟩), get?]
      have hp : t.get? (place ++ [n]) = es.lookup n := by
        rw [get?_append, hg]
        cases h : es.lookup n <;> simp [get?, h]
      rw [contentAt?, hp]
      cases hl : es.lookup n with
      | none => simp
      | some u =>
        rw [hl] at hp
        rw [Option.map_some, Option.isSome_some, if_pos rfl, ih hp hns, Option.bind_some,
          List.append_assoc, List.singleton_append]

theorem isFile_iff : w.isFile p = true ↔ ∃ place b, w.resolve p = .ok (place, .file b) := by
  rw [isFile]
  split
  · rename_i d b h
    simp [h]
  · rename_i h
    simpa using h

theorem isFile_below (hr : w.resolve p = .ok (place, t)) (hn : ∀ n ∈ ns, IsName n)
    (hne : ns ≠ []) : w.isFile (below p ns) = true ↔ ∃ b, t.get? ns = some (.file b) := by
  obtain ⟨hp, hf, hg, -⟩ := resolve_eq_ok.mp hr
  have hs : w.start (below p ns) = w.start p := by rw [start, start, isAbsolute_below hp hn]
  have he := endsInSeparator_below hp hn hne
  rw [isFile_iff]
  simp only [resolve_eq_ok, steps_below hp hn, hs, follow_append, hf]
  constructor
  · rintro ⟨e, b, -, hd, hb, -⟩
    obtain ⟨rfl, -⟩ := (follow_names hg hn).mp hd
    rw [get?_append, hg] at hb
    exact ⟨b, hb⟩
  · rintro ⟨b, hb⟩
    refine ⟨place ++ ns, b, text_below_ne hp hn, ?_, ?_, fun _ => he⟩
    · exact (follow_names hg hn).mpr ⟨rfl, by rw [hb]; rfl⟩
    · rw [get?_append, hg]
      exact hb

end Workspace

end EndpointCatalog
