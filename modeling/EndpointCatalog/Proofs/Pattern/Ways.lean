import EndpointCatalog.Pattern.Match

namespace EndpointCatalog

/-- Whether one point of a text lies at another or behind it. -/
def Cursor.Reaches (a b : Cursor) : Prop :=
  ∃ w, a.rest = w ++ b.rest ∧ b.offset = a.offset + w.length

namespace Cursor.Reaches

variable {a b c : Cursor}

theorem refl (a : Cursor) : a.Reaches a := ⟨[], rfl, rfl⟩

theorem step (o : Nat) (c : Char) (cs : List Char) : Reaches ⟨o, c :: cs⟩ ⟨o + 1, cs⟩ :=
  ⟨[c], rfl, rfl⟩

theorem trans (h : a.Reaches b) (h' : b.Reaches c) : a.Reaches c := by
  obtain ⟨w, hw, ho⟩ := h
  obtain ⟨w', hw', ho'⟩ := h'
  refine ⟨w ++ w', by rw [hw, hw', List.append_assoc], ?_⟩
  rw [ho', ho, List.length_append, Nat.add_assoc]

theorem isSuffix (h : a.Reaches b) : b.rest <:+ a.rest := by
  obtain ⟨w, hw, -⟩ := h
  exact ⟨w, hw.symm⟩

theorem offset_le (h : a.Reaches b) : a.offset ≤ b.offset := by
  obtain ⟨w, -, ho⟩ := h
  rw [ho]
  exact Nat.le_add_right _ _

theorem rest_eq (h : a.Reaches b) : a.rest = a.upTo b ++ b.rest := by
  obtain ⟨w, hw, ho⟩ := h
  rw [Cursor.upTo, ho, Nat.add_sub_cancel_left, hw, List.take_left]

end Cursor.Reaches

namespace Pattern

def subgroups : Pattern → List (Nat × Pattern)
  | empty | one _ | atStart | atEnd => []
  | seq p q | alt p q => p.subgroups ++ q.subgroups
  | plus _ p => p.subgroups
  | group i p => (i, p) :: p.subgroups

theorem forall_again {P : Run → Prop} {once : Cursor → List Run}
    (h : ∀ r, P r → ∀ s ∈ once r.stop, P (r.andThen s)) (greedy : Bool) (n : Nat) {r : Run}
    {others : List Run} (hr : P r) (ho : ∀ s ∈ others, P s) :
    ∀ s ∈ again once greedy n r others, P s := by
  induction n generalizing r others with
  | zero => exact List.forall_mem_cons.mpr ⟨hr, ho⟩
  | succ n ih =>
    have hf : ∀ {after : List Run}, (∀ s ∈ after, P s) → ∀ ss : List Run,
        (∀ s ∈ ss, P (r.andThen s)) →
        ∀ s ∈ ss.foldr (fun s => again once greedy n (r.andThen s)) after, P s := by
      intro after hafter ss hss
      induction ss with
      | nil => exact hafter
      | cons s ss ihs =>
        obtain ⟨hs, hss⟩ := List.forall_mem_cons.mp hss
        exact ih hs (ihs hss)
    have honce : ∀ s ∈ (once r.stop).filter (r.stop.offset < ·.stop.offset), P (r.andThen s) :=
      fun s hs => h r hr s (List.mem_filter.mp hs).1
    cases greedy with
    | true => exact hf (List.forall_mem_cons.mpr ⟨hr, ho⟩) _ honce
    | false => exact List.forall_mem_cons.mpr ⟨hr, hf ho _ honce⟩

/-- What holds of a way that takes nothing or one character, of one way after another, and of a
group when it holds of what the group takes. -/
theorem runs_induction {P : Cursor → Run → Prop} {p : Pattern} (empty : ∀ a, P a ⟨a, []⟩)
    (one : ∀ o c cs, P ⟨o, c :: cs⟩ ⟨⟨o + 1, cs⟩, []⟩)
    (andThen : ∀ a r s, P a r → P r.stop s → P a (r.andThen s))
    (group : ∀ i q, (i, q) ∈ p.subgroups → ∀ a, ∀ r ∈ q.runs a, P a r →
      P a ⟨r.stop, (i, a.upTo r.stop) :: r.groups⟩) (a : Cursor) :
    ∀ r ∈ p.runs a, P a r := by
  induction p generalizing a with
  | empty => exact List.forall_mem_singleton.mpr (empty a)
  | one s =>
    obtain ⟨o, _ | ⟨c, cs⟩⟩ := a
    · exact fun r hr => absurd hr List.not_mem_nil
    · intro r hr
      rw [runs] at hr
      dsimp only at hr
      split at hr
      · rw [List.mem_singleton.mp hr]
        exact one o c cs
      · cases hr
  | seq p q ihp ihq =>
    intro r hr
    obtain ⟨s, hs, hr⟩ := List.mem_flatMap.mp hr
    obtain ⟨t, ht, rfl⟩ := List.mem_map.mp hr
    apply andThen
    · exact ihp (fun i q hq => group i q (List.mem_append_left _ hq)) a s hs
    · exact ihq (fun i q hq => group i q (List.mem_append_right _ hq)) s.stop t ht
  | alt p q ihp ihq =>
    intro r hr
    obtain hr | hr := List.mem_append.mp hr
    · exact ihp (fun i q hq => group i q (List.mem_append_left _ hq)) a r hr
    · exact ihq (fun i q hq => group i q (List.mem_append_right _ hq)) a r hr
  | plus greedy p ih =>
    -- what a further time adds is one way after another, however many times there are
    have hf : ∀ ss : List Run, (∀ s ∈ ss, P a s) →
        ∀ s ∈ ss.foldr (fun s others => if s.stop.offset = a.offset then s :: others
          else again p.runs greedy s.stop.rest.length s others) [], P a s := by
      intro ss hss
      induction ss with
      | nil => exact fun _ hs => absurd hs List.not_mem_nil
      | cons s ss ihs =>
        obtain ⟨hs, hss⟩ := List.forall_mem_cons.mp hss
        rw [List.foldr_cons]
        split
        · exact List.forall_mem_cons.mpr ⟨hs, ihs hss⟩
        · exact forall_again (fun r hr s hs => andThen a r s hr (ih group r.stop s hs)) greedy _ hs
            (ihs hss)
    exact hf _ (ih group a)
  | group i p ih =>
    intro r hr
    obtain ⟨s, hs, rfl⟩ := List.mem_map.mp hr
    apply group i p List.mem_cons_self a s hs
    exact ih (fun i q hq => group i q (List.mem_cons_of_mem _ hq)) a s hs
  | atStart | atEnd =>
    intro r hr
    rw [runs] at hr
    split at hr
    · rw [List.mem_singleton.mp hr]
      exact empty a
    · cases hr

theorem reaches_of_mem_runs {p : Pattern} {a : Cursor} {r : Run} (h : r ∈ p.runs a) :
    a.Reaches r.stop :=
  runs_induction (P := fun a r => a.Reaches r.stop) Cursor.Reaches.refl Cursor.Reaches.step
    (fun _ _ _ h h' => h.trans h') (fun _ _ _ _ _ _ h => h) a r h

theorem mem_runs_of_findFrom? {p : Pattern} {o : Nat} {cs : List Char} {m : Match}
    (h : p.findFrom? o cs = some m) : m.run ∈ p.runs m.start ∧ Cursor.Reaches ⟨o, cs⟩ m.start := by
  induction cs generalizing o with
  | nil =>
    rw [findFrom?] at h
    split at h
    · rename_i t ht
      obtain rfl := Option.some.inj h
      exact ⟨List.mem_of_head? ht, .refl _⟩
    · cases h
  | cons c cs ih =>
    rw [findFrom?] at h
    split at h
    · rename_i t ht
      obtain rfl := Option.some.inj h
      exact ⟨List.mem_of_head? ht, .refl _⟩
    · exact (ih h).imp_right (.trans (.step o c cs))

theorem mem_runs_of_next? {p : Pattern} {a : Cursor} {last : Option Nat} {m : Match}
    (h : p.next? a last = some m) : m.run ∈ p.runs m.start ∧ a.Reaches m.start := by
  obtain ⟨o, cs⟩ := a
  rw [next?] at h
  split at h
  · cases h
  rename_i k hk
  split at h
  · cases cs with
    | nil => cases h
    | cons c cs => exact (mem_runs_of_findFrom? h).imp_right (.trans (.step o c cs))
  · obtain rfl := Option.some.inj h
    exact mem_runs_of_findFrom? hk

theorem mem_runs_of_mem_findAllFrom {p : Pattern} {n : Nat} {a : Cursor} {last : Option Nat} :
    ∀ m ∈ p.findAllFrom n a last, m.run ∈ p.runs m.start ∧ a.Reaches m.start := by
  induction n generalizing a last with
  | zero => exact fun m h => absurd h List.not_mem_nil
  | succ n ih =>
    rw [findAllFrom]
    split
    · exact fun m h => absurd h List.not_mem_nil
    · rename_i k hk
      have hn := mem_runs_of_next? hk
      refine List.forall_mem_cons.mpr ⟨hn, fun m hm => ?_⟩
      exact (ih m hm).imp_right ((hn.2.trans (reaches_of_mem_runs hn.1)).trans ·)

theorem pairwise_findAllFrom (p : Pattern) (n : Nat) (a : Cursor) (last : Option Nat) :
    (p.findAllFrom n a last).Pairwise fun m m' => m.stop.Reaches m'.start := by
  induction n generalizing a last with
  | zero => exact List.Pairwise.nil
  | succ n ih =>
    rw [findAllFrom]
    split
    · exact List.Pairwise.nil
    · exact List.pairwise_cons.mpr ⟨fun m hm => (mem_runs_of_mem_findAllFrom m hm).2, ih _ _⟩

end Pattern

end EndpointCatalog
