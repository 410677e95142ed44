import EndpointCatalog.Pattern.Match

namespace EndpointCatalog.Pattern

variable (s : CharSet) (p q r : Pattern) (o : Nat) (a : Cursor)

@[simp] theorem andThen_no_groups (a : Cursor) (t : Run) : Run.andThen ⟨a, []⟩ t = t := by
  simp [Run.andThen]

theorem map_andThen_no_groups (a : Cursor) (ts : List Run) : ts.map (Run.andThen ⟨a, []⟩) = ts := by
  have h : Run.andThen ⟨a, []⟩ = id := funext fun t => andThen_no_groups a t
  rw [h, List.map_id]

theorem runs_seq :
    (seq p q).runs a = (p.runs a).flatMap fun t => (q.runs t.stop).map t.andThen := rfl

theorem runs_seq_assoc : (seq (seq p q) r).runs a = (seq p (seq q r)).runs a := by
  have h : ∀ t u : Run, (t.andThen u).andThen = t.andThen ∘ u.andThen := fun t u => by
    funext v
    simp [Run.andThen]
  simp only [runs_seq, List.flatMap_assoc, List.flatMap_map, List.map_flatMap, List.map_map, h]
  rfl

theorem runs_seq_congr {p p' : Pattern} (h : p.runs a = p'.runs a) :
    (seq p q).runs a = (seq p' q).runs a := by
  simp only [runs_seq, h]

theorem runs_one_cons (c : Char) (cs : List Char) :
    (one s).runs ⟨o, c :: cs⟩ = if s.contains c then [⟨⟨o + 1, cs⟩, []⟩] else [] := rfl

/-- The points to which a greedy repetition of `s` can go from an offset, the farthest first. -/
def stretch (s : CharSet) (o : Nat) : List Char → List Cursor
  | [] => [⟨o, []⟩]
  | c :: cs => (if s.contains c then stretch s (o + 1) cs else []) ++ [⟨o, c :: cs⟩]

theorem again_one (cs : List Char) (gs : List (Nat × List Char)) (others : List Run) :
    again (one s).runs true cs.length ⟨⟨o, cs⟩, gs⟩ others =
      (stretch s o cs).map (⟨·, gs⟩) ++ others := by
  induction cs generalizing o others with
  | nil => rfl
  | cons c cs ih =>
    by_cases hc : s.contains c
    · simp [again, runs_one_cons, hc, stretch, Run.andThen, ih]
    · simp [again, runs_one_cons, hc, stretch]

theorem runs_plus_one (c : Char) (cs : List Char) :
    (plus true (one s)).runs ⟨o, c :: cs⟩ =
      if s.contains c then (stretch s (o + 1) cs).map (⟨·, []⟩) else [] := by
  have h : (plus true (one s)).runs ⟨o, c :: cs⟩ = ((one s).runs ⟨o, c :: cs⟩).foldr
      (fun t others => if t.stop.offset = o then t :: others
        else again (one s).runs true t.stop.rest.length t others) [] := rfl
  rw [h, runs_one_cons]
  by_cases hc : s.contains c
  · simp [hc, again_one]
  · simp [hc]

theorem runs_star_one (cs : List Char) :
    (star true (one s)).runs ⟨o, cs⟩ = (stretch s o cs).map (⟨·, []⟩) := by
  cases cs with
  | nil => rfl
  | cons c cs =>
    have h : (star true (one s)).runs ⟨o, c :: cs⟩ =
        (plus true (one s)).runs ⟨o, c :: cs⟩ ++ [⟨⟨o, c :: cs⟩, []⟩] := rfl
    rw [h, runs_plus_one]
    by_cases hc : s.contains c <;> simp [hc, stretch]

theorem runs_seq_star (cs : List Char) :
    (seq (star true (one s)) q).runs ⟨o, cs⟩ = (stretch s o cs).flatMap q.runs := by
  simp only [runs_seq, runs_star_one, List.flatMap_map, map_andThen_no_groups]

theorem runs_seq_plus (c : Char) (cs : List Char) :
    (seq (plus true (one s)) q).runs ⟨o, c :: cs⟩ =
      if s.contains c then (stretch s (o + 1) cs).flatMap q.runs else [] := by
  simp only [runs_seq, runs_plus_one]
  by_cases hc : s.contains c
  · simp only [hc, if_true, List.flatMap_map, map_andThen_no_groups]
  · simp [hc]

theorem mem_stretch {b : Cursor} {cs : List Char} (h : b ∈ stretch s o cs) :
    ∃ w, (∀ c ∈ w, s.contains c = true) ∧ cs = w ++ b.rest ∧ b.offset = o + w.length := by
  induction cs generalizing o with
  | nil =>
    simp only [stretch, List.mem_singleton] at h
    exact ⟨[], by simp, by simp [h], by simp [h]⟩
  | cons c cs ih =>
    simp only [stretch, List.mem_append, List.mem_singleton] at h
    obtain h | rfl := h
    · by_cases hc : s.contains c
      · obtain ⟨w, hw, hcs, ho⟩ := ih (o + 1) (by simpa [hc] using h)
        refine ⟨c :: w, by simpa [hc] using hw, by simp [hcs], ?_⟩
        rw [ho, List.length_cons]
        omega
      · simp [hc] at h
    · exact ⟨[], by simp, rfl, rfl⟩

theorem contains_of_mem_runs_star_one {t : Run} (h : t ∈ (star true (one s)).runs a) :
    ∀ c ∈ a.upTo t.stop, s.contains c = true := by
  obtain ⟨o, cs⟩ := a
  rw [runs_star_one] at h
  obtain ⟨b, hb, rfl⟩ := List.mem_map.mp h
  obtain ⟨w, hw, hcs, ho⟩ := mem_stretch s o hb
  have hu : Cursor.upTo ⟨o, cs⟩ b = w := by
    rw [Cursor.upTo, ho, Nat.add_sub_cancel_left, hcs, List.take_left]
  rw [hu]
  exact hw

theorem contains_of_mem_runs_plus_one {t : Run} (h : t ∈ (plus true (one s)).runs a) :
    ∀ c ∈ a.upTo t.stop, s.contains c = true := by
  apply contains_of_mem_runs_star_one
  exact List.mem_append_left _ h

/-- Where what follows cannot start inside the stretch, only its end is of use. -/
theorem flatMap_stretch {β : Type} (f : Cursor → List β)
    (hf : ∀ o c cs, s.contains c → f ⟨o, c :: cs⟩ = []) (w cs : List Char)
    (hw : ∀ c ∈ w, s.contains c) (hcs : ∀ c ∈ cs.head?, s.contains c = false) :
    (stretch s o (w ++ cs)).flatMap f = f ⟨o + w.length, cs⟩ := by
  induction w generalizing o with
  | nil =>
    cases cs with
    | nil => simp [stretch]
    | cons c cs => simp [stretch, hcs c (by simp)]
  | cons c w ih =>
    have hc : s.contains c = true := hw c (by simp)
    have hi := ih (o + 1) fun d hd => hw d (by simp [hd])
    have ho : o + 1 + w.length = o + (w.length + 1) := by omega
    simp only [List.cons_append, stretch, hc, if_true, List.flatMap_append, List.flatMap_cons,
      List.flatMap_nil, hf o c _ hc, List.append_nil, hi, List.length_cons, ho]

theorem runs_seq_plus_append (hq : ∀ o c cs, s.contains c → q.runs ⟨o, c :: cs⟩ = [])
    {w cs : List Char} (hn : w ≠ []) (hw : ∀ c ∈ w, s.contains c)
    (hcs : ∀ c ∈ cs.head?, s.contains c = false) :
    (seq (plus true (one s)) q).runs ⟨o, w ++ cs⟩ = q.runs ⟨o + w.length, cs⟩ := by
  obtain ⟨c, w, rfl⟩ := List.exists_cons_of_ne_nil hn
  have hc : s.contains c = true := hw c (by simp)
  have ho : o + 1 + w.length = o + (c :: w).length := by simp; omega
  rw [List.cons_append, runs_seq_plus, if_pos hc,
    flatMap_stretch s _ q.runs hq w cs (fun d hd => hw d (by simp [hd])) hcs, ho]

theorem runs_seq_group (i : Nat) :
    (seq (group i p) q).runs a = (p.runs a).flatMap fun t =>
      (q.runs t.stop).map (Run.andThen ⟨t.stop, (i, a.upTo t.stop) :: t.groups⟩) := by
  simp only [runs, List.flatMap_map]

theorem upTo_append (w cs : List Char) : Cursor.upTo ⟨o, w ++ cs⟩ ⟨o + w.length, cs⟩ = w := by
  simp [Cursor.upTo]

theorem runs_seq_group_plus_append (i : Nat)
    (hq : ∀ o c cs, s.contains c → q.runs ⟨o, c :: cs⟩ = [])
    {w cs : List Char} (hn : w ≠ []) (hw : ∀ c ∈ w, s.contains c)
    (hcs : ∀ c ∈ cs.head?, s.contains c = false) :
    (seq (group i (plus true (one s))) q).runs ⟨o, w ++ cs⟩ =
      (q.runs ⟨o + w.length, cs⟩).map (Run.andThen ⟨⟨o + w.length, cs⟩, [(i, w)]⟩) := by
  obtain ⟨c, w, rfl⟩ := List.exists_cons_of_ne_nil hn
  have hc : s.contains c = true := hw c (by simp)
  have ho : o + 1 + w.length = o + (c :: w).length := by simp; omega
  rw [runs_seq_group, List.cons_append, runs_plus_one, if_pos hc, List.flatMap_map,
    flatMap_stretch s _ _ (fun o c cs hc => by simp [hq o c cs hc]) w cs
      (fun d hd => hw d (by simp [hd])) hcs, ho]
  have hu := upTo_append o (c :: w) cs
  rw [List.cons_append] at hu
  rw [hu]

theorem single_contains (c d : Char) : (CharSet.single c).contains d = true ↔ d = c := by
  simp only [CharSet.single, CharSet.contains, Bool.and_eq_true, decide_eq_true_eq]
  exact ⟨fun h => Char.le_antisymm h.2 h.1, fun h => by subst h; exact ⟨Char.le_refl d, Char.le_refl d⟩⟩

theorem runs_seq_empty : (seq p empty).runs a = p.runs a := by
  have h : ∀ t : Run, (empty.runs t.stop).map t.andThen = [t] := fun t => by
    simp [runs, Run.andThen]
  simp [runs_seq, h]

theorem runs_concat_cons (ps : List Pattern) :
    (concat (p :: ps)).runs a = (seq p (concat ps)).runs a := by
  cases ps with
  | cons p' ps => rfl
  | nil => exact (runs_seq_empty p a).symm

theorem runs_seq_chars_append (w cs : List Char) :
    (seq (concat (w.map char)) q).runs ⟨o, w ++ cs⟩ = q.runs ⟨o + w.length, cs⟩ := by
  induction w generalizing o with
  | nil =>
    simp [concat, runs, map_andThen_no_groups]
  | cons c w ih =>
    have ho : o + 1 + w.length = o + (w.length + 1) := by omega
    have hc : (CharSet.single c).contains c = true := (single_contains c c).mpr rfl
    rw [List.map_cons, runs_seq_congr q _ (runs_concat_cons (char c) _ _), runs_seq_assoc, runs_seq]
    simp only [char, runs_one_cons, List.cons_append, hc, if_true, List.flatMap_cons,
      List.flatMap_nil, map_andThen_no_groups, List.append_nil]
    rw [ih, ho, List.length_cons]

theorem runs_seq_chars_eq_nil {w cs : List Char} (h : ¬ w <+: cs) :
    (seq (concat (w.map char)) q).runs ⟨o, cs⟩ = [] := by
  induction w generalizing o cs with
  | nil => exact absurd (List.nil_prefix) h
  | cons c w ih =>
    rw [List.map_cons, runs_seq_congr q _ (runs_concat_cons (char c) _ _), runs_seq_assoc, runs_seq]
    cases cs with
    | nil => rfl
    | cons d cs =>
      by_cases hd : d = c
      · subst hd
        have hw : ¬ w <+: cs := fun hp => h ((List.prefix_cons_inj d).mpr hp)
        have hc : (CharSet.single d).contains d = true := (single_contains d d).mpr rfl
        simp only [char, runs_one_cons, hc, if_true, List.flatMap_cons, List.flatMap_nil,
          List.append_nil, map_andThen_no_groups]
        exact ih (o + 1) hw
      · have hc : (CharSet.single c).contains d = false := by
          rw [Bool.eq_false_iff]
          exact fun hm => hd ((single_contains c d).mp hm)
        simp [char, runs_one_cons, hc]

theorem runs_seq_literal_append (w : String) (cs : List Char) :
    (seq (literal w) q).runs ⟨o, w.toList ++ cs⟩ = q.runs ⟨o + w.toList.length, cs⟩ :=
  runs_seq_chars_append q o w.toList cs

theorem runs_seq_literal_eq_nil {w : String} {cs : List Char} (h : ¬ w.toList <+: cs) :
    (seq (literal w) q).runs ⟨o, cs⟩ = [] :=
  runs_seq_chars_eq_nil q o h

theorem runs_literal_append (w : String) (cs : List Char) :
    (literal w).runs ⟨o, w.toList ++ cs⟩ = [⟨⟨o + w.toList.length, cs⟩, []⟩] := by
  rw [← runs_seq_empty, runs_seq_literal_append]
  rfl

theorem runs_literal_eq_nil {w : String} {cs : List Char} (h : ¬ w.toList <+: cs) :
    (literal w).runs ⟨o, cs⟩ = [] := by
  rw [← runs_seq_empty, runs_seq_literal_eq_nil empty o h]

theorem runs_seq_char (c : Char) (cs : List Char) :
    (seq (char c) q).runs ⟨o, c :: cs⟩ = q.runs ⟨o + 1, cs⟩ :=
  runs_seq_chars_append q o [c] cs

theorem runs_seq_char_eq_nil {c d : Char} (h : d ≠ c) (cs : List Char) :
    (seq (char c) q).runs ⟨o, d :: cs⟩ = [] := by
  apply runs_seq_chars_eq_nil q o (w := [c])
  rw [List.cons_prefix_cons]
  exact fun hp => h hp.1.symm

theorem runs_char_eq_nil {c d : Char} (h : d ≠ c) (cs : List Char) :
    (char c).runs ⟨o, d :: cs⟩ = [] := by
  rw [← runs_seq_empty, runs_seq_char_eq_nil empty o h]

end EndpointCatalog.Pattern
