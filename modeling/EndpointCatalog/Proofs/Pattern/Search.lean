import EndpointCatalog.Proofs.Pattern.Runs
import EndpointCatalog.Proofs.Pattern.Ways
import EndpointCatalog.Proofs.Text.Search

namespace EndpointCatalog.Pattern

variable (s : CharSet) (p q : Pattern) (o : Nat)

theorem head?_stretch (w cs : List Char) (hw : ∀ c ∈ w, s.contains c)
    (hcs : ∀ c ∈ cs.head?, s.contains c = false) :
    (stretch s o (w ++ cs)).head? = some ⟨o + w.length, cs⟩ := by
  induction w generalizing o with
  | nil =>
    cases cs with
    | nil => rfl
    | cons c cs => simp [stretch, hcs c (by simp)]
  | cons c w ih =>
    have hc : s.contains c = true := hw c (by simp)
    have hi := ih (o + 1) fun d hd => hw d (by simp [hd])
    have ho : o + 1 + w.length = o + (w.length + 1) := by omega
    simp only [List.cons_append, stretch, hc, if_true, List.head?_append, hi, Option.some_or,
      List.length_cons, ho]

theorem mem_stretch_append (w cs : List Char) (hw : ∀ c ∈ w, s.contains c) :
    (⟨o + w.length, cs⟩ : Cursor) ∈ stretch s o (w ++ cs) := by
  induction w generalizing o with
  | nil => cases cs <;> simp [stretch]
  | cons c w ih =>
    have hi := ih (o + 1) fun d hd => hw d (by simp [hd])
    have ho : o + 1 + w.length = o + (w.length + 1) := by omega
    rw [ho] at hi
    simp [stretch, hw c (by simp), hi]

theorem runs_seq_group_star (i : Nat) (cs : List Char) :
    (seq (group i (star true (one s))) q).runs ⟨o, cs⟩ =
      (stretch s o cs).flatMap fun b =>
        (q.runs b).map (Run.andThen ⟨b, [(i, Cursor.upTo ⟨o, cs⟩ b)]⟩) := by
  have h : (group i (star true (one s))).runs ⟨o, cs⟩ =
      (stretch s o cs).map fun b => ⟨b, [(i, Cursor.upTo ⟨o, cs⟩ b)]⟩ := by
    simp [runs, runs_star_one]
  simp only [runs_seq, h, List.flatMap_map]

theorem head?_group_star (i : Nat) (w cs : List Char) (hw : ∀ c ∈ w, s.contains c)
    (hcs : ∀ c ∈ cs.head?, s.contains c = false) :
    ((group i (star true (one s))).runs ⟨o, w ++ cs⟩).head? =
      some ⟨⟨o + w.length, cs⟩, [(i, w)]⟩ := by
  simp [runs, runs_star_one, head?_stretch s o w cs hw hcs, upTo_append]

theorem head?_flatMap_stretch {β : Type} {t : β} (f : Cursor → List β) (w cs : List Char)
    (hw : ∀ c ∈ w, s.contains c)
    (h : ((stretch s (o + w.length) cs).flatMap f).head? = some t) :
    ((stretch s o (w ++ cs)).flatMap f).head? = some t := by
  induction w generalizing o with
  | nil => exact h
  | cons c w ih =>
    have ho : o + 1 + w.length = o + (c :: w).length := by simp; omega
    have hi := ih (o + 1) (fun d hd => hw d (by simp [hd])) (by rw [ho]; exact h)
    simp [stretch, hw c (by simp), List.head?_append, hi]

theorem head?_flatMap_of_head? {α β : Type} {l : List α} {f : α → List β} {a : α} {t : β}
    (ha : l.head? = some a) (ht : (f a).head? = some t) : (l.flatMap f).head? = some t := by
  obtain ⟨l, rfl⟩ := List.head?_eq_some_iff.mp ha
  simp [List.head?_append, ht]

theorem exists_of_head?_flatMap {α β : Type} {l : List α} {f : α → List β} {t : β}
    (h : (l.flatMap f).head? = some t) : ∃ a ∈ l, (f a).head? = some t := by
  rw [List.head?_flatMap] at h
  exact List.exists_of_findSome?_eq_some h

theorem runs_seq_star_ne_nil (w cs : List Char) (hw : ∀ c ∈ w, s.contains c)
    (hq : q.runs ⟨o + w.length, cs⟩ ≠ []) :
    (seq (star true (one s)) q).runs ⟨o, w ++ cs⟩ ≠ [] := by
  rw [runs_seq_star]
  intro h
  exact hq (List.flatMap_eq_nil_iff.mp h _ (mem_stretch_append s o w cs hw))

theorem inLine_contains (c : Char) : CharSet.inLine.contains c = true ↔ c ≠ '\n' := by
  rw [ne_eq, ← single_contains]
  simp [CharSet.inLine, CharSet.contains]

/-- The first way of a pattern satisfies `P` wherever it starts on a line that `tail` follows. -/
def FirstOnLine (q : Pattern) (P : Run → Prop) (o : Nat) (line tail : List Char) : Prop :=
  ∀ u v, line = u ++ v → ∀ t ∈ (q.runs ⟨o + u.length, v ++ '\n' :: tail⟩).head?, P t

variable {q} {P : Run → Prop} {o} {line tail : List Char}

theorem FirstOnLine.star {s : CharSet} (hs : s.contains '\n' = false)
    (h : FirstOnLine q P o line tail) :
    FirstOnLine (seq (star true (one s)) q) P o line tail := by
  intro u v huv t ht
  rw [runs_seq_star] at ht
  induction v generalizing u with
  | nil =>
    apply h u [] huv
    simpa [stretch, hs] using ht
  | cons c v ih =>
    have hn : line = (u ++ [c]) ++ v := by simp [huv]
    by_cases hc : s.contains c
    · simp only [List.cons_append, stretch, hc, if_true, List.flatMap_append, List.flatMap_cons,
        List.flatMap_nil, List.append_nil, List.head?_append, Option.mem_def,
        Option.or_eq_some_iff] at ht
      obtain ht | ht := ht
      · exact ih (u ++ [c]) hn (by simpa [Nat.add_assoc] using ht)
      · exact h u (c :: v) huv t ht.2
    · apply h u (c :: v) huv
      simpa [stretch, hc] using ht

theorem FirstOnLine.literal {w : String} (hw : '\n' ∉ w.toList)
    (h : FirstOnLine q P o line tail) :
    FirstOnLine (seq (literal w) q) P o line tail := by
  intro u v huv t ht
  by_cases hp : w.toList <+: v ++ '\n' :: tail
  · obtain ⟨v', hv'⟩ := Text.Search.prefix_of_prefix_append_cons hw hp
    rw [← hv', List.append_assoc, runs_seq_literal_append] at ht
    apply h (u ++ w.toList) v' (by simp [huv, hv'])
    simpa [Nat.add_assoc] using ht
  · simp [runs_seq_literal_eq_nil q _ hp] at ht

theorem findFrom?_of_head? {o : Nat} {cs : List Char} {t : Run}
    (h : (p.runs ⟨o, cs⟩).head? = some t) : p.findFrom? o cs = some ⟨⟨o, cs⟩, t⟩ := by
  unfold findFrom?
  rw [h]

theorem findFrom?_append (o : Nat) (x y : List Char)
    (h : ∀ u v, x = u ++ v → v ≠ [] → p.runs ⟨o + u.length, v ++ y⟩ = []) :
    p.findFrom? o (x ++ y) = p.findFrom? (o + x.length) y := by
  induction x generalizing o with
  | nil => rfl
  | cons c x ih =>
    have h0 : p.runs ⟨o, (c :: x) ++ y⟩ = [] := h [] (c :: x) rfl (by simp)
    have ho : o + 1 + x.length = o + (c :: x).length := by simp; omega
    rw [← ho, ← ih (o + 1)]
    · conv => lhs; unfold findFrom?
      rw [h0]
      rfl
    · intro u v huv hv
      have hu := h (c :: u) v (by rw [huv]; rfl) hv
      have hl : o + (c :: u).length = o + 1 + u.length := by simp; omega
      rwa [hl] at hu

/-! Where a pattern begins with a character, no match is empty, so a search never steps back. -/

theorem findFrom?_seq_char_of_ne {c d : Char} (h : d ≠ c) (o : Nat) (cs : List Char) :
    (seq (char c) q).findFrom? o (d :: cs) = (seq (char c) q).findFrom? (o + 1) cs := by
  conv => lhs; unfold findFrom?
  rw [runs_seq_char_eq_nil q o h]
  rfl

theorem findFrom?_seq_char_self (c : Char) (o : Nat) (cs : List Char) :
    (seq (char c) q).findFrom? o (c :: cs) =
      ((q.runs ⟨o + 1, cs⟩).head?.map (Match.mk ⟨o, c :: cs⟩)).or
        ((seq (char c) q).findFrom? (o + 1) cs) := by
  conv => lhs; unfold findFrom?
  rw [runs_seq_char]
  cases (q.runs ⟨o + 1, cs⟩).head? <;> rfl

theorem exists_of_mem_runs_seq_char {c : Char} {a : Cursor} {r : Run}
    (h : r ∈ (seq (char c) q).runs a) :
    ∃ y, a.rest = c :: y ∧ Cursor.Reaches ⟨a.offset + 1, y⟩ r.stop := by
  obtain ⟨o, _ | ⟨d, y⟩⟩ := a
  · exact absurd h List.not_mem_nil
  · by_cases hd : d = c
    · subst hd
      rw [runs_seq_char] at h
      exact ⟨y, rfl, reaches_of_mem_runs h⟩
    · rw [runs_seq_char_eq_nil q o hd] at h
      cases h

theorem next?_seq_char (c : Char) (a : Cursor) (last : Option Nat) :
    (seq (char c) q).next? a last = (seq (char c) q).findFrom? a.offset a.rest := by
  rw [next?]
  split
  · rename_i h
    exact h.symm
  · rename_i m h
    obtain ⟨y, -, hy⟩ := exists_of_mem_runs_seq_char (mem_runs_of_findFrom? h).1
    have ho : m.start.offset + 1 ≤ m.stop.offset := hy.offset_le
    have hn : ¬ (m.stop.offset = m.start.offset ∧ last = some m.stop.offset) := fun hm => by
      rw [hm.1] at ho
      exact Nat.not_succ_le_self _ ho
    rw [if_neg hn, h]

/-! A group around a pattern adds what the whole match takes. -/

def inGroup (i : Nat) (m : Match) : Match :=
  ⟨m.start, ⟨m.stop, (i, m.start.upTo m.stop) :: m.run.groups⟩⟩

theorem findFrom?_group (i : Nat) (o : Nat) (cs : List Char) :
    (group i p).findFrom? o cs = (p.findFrom? o cs).map (inGroup i) := by
  induction cs generalizing o with
  | nil =>
    unfold findFrom?
    rw [runs, List.head?_map]
    cases (p.runs ⟨o, []⟩).head? <;> rfl
  | cons c cs ih =>
    unfold findFrom?
    rw [runs, List.head?_map]
    cases (p.runs ⟨o, c :: cs⟩).head? with
    | none => exact ih (o + 1)
    | some r => rfl

theorem next?_group (i : Nat) (a : Cursor) (last : Option Nat) :
    (group i p).next? a last = (p.next? a last).map (inGroup i) := by
  obtain ⟨o, cs⟩ := a
  rw [next?, next?, findFrom?_group]
  cases p.findFrom? o cs with
  | none => rfl
  | some m =>
    have hm : (inGroup i m).stop.offset = (inGroup i m).start.offset ∧
          last = some (inGroup i m).stop.offset ↔
        m.stop.offset = m.start.offset ∧ last = some m.stop.offset := .rfl
    rw [Option.map_some]
    dsimp only
    by_cases h : m.stop.offset = m.start.offset ∧ last = some m.stop.offset
    · rw [if_pos h, if_pos (hm.mpr h)]
      cases cs with
      | nil => rfl
      | cons c cs => exact findFrom?_group p i (o + 1) cs
    · rw [if_neg h, if_neg (mt hm.mp h)]
      rfl

theorem findAllFrom_group (i n : Nat) (a : Cursor) (last : Option Nat) :
    (group i p).findAllFrom n a last = (p.findAllFrom n a last).map (inGroup i) := by
  induction n generalizing a last with
  | zero => rfl
  | succ n ih =>
    rw [findAllFrom, findAllFrom, next?_group]
    cases p.next? a last with
    | none => rfl
    | some m => exact congrArg _ (ih _ _)

end EndpointCatalog.Pattern
