import EndpointCatalog.Proofs.Pattern.Search
import EndpointCatalog.Proofs.Pattern.Ways
import EndpointCatalog.Proofs.Text.Returns

namespace EndpointCatalog

open Text Text.Returns

variable (source : List Char)

/-- The point in the source with returns from which on it is `cs` with returns. -/
def Cursor.twin (cs : List Char) : Cursor :=
  ⟨(withReturns source).length - (withReturns cs).length, withReturns cs⟩

def Run.twin (r : Run) : Run := ⟨Cursor.twin source r.stop.rest, r.groups⟩

/-- A match that starts with a break starts behind the return. -/
def Match.twin (m : Match) : Match :=
  ⟨⟨(Cursor.twin source m.start.rest).offset + 1, (withReturns m.start.rest).tail⟩,
    m.run.twin source⟩

namespace Pattern

variable {source}

theorem exists_twin_append {w cs : List Char} (h : w ++ cs <:+ source) :
    ∃ o, Cursor.twin source (w ++ cs) = ⟨o, withReturns w ++ withReturns cs⟩ ∧
      Cursor.twin source cs = ⟨o + (withReturns w).length, withReturns cs⟩ := by
  obtain ⟨x, rfl⟩ := h
  refine ⟨(withReturns x).length, ?_, ?_⟩
  all_goals
    simp only [Cursor.twin, withReturns_append, List.length_append, Cursor.mk.injEq, and_true]
    omega

theorem exists_twin_cons {c : Char} (hc : c ≠ '\n') {cs : List Char} (h : c :: cs <:+ source) :
    ∃ o, Cursor.twin source (c :: cs) = ⟨o, c :: withReturns cs⟩ ∧
      Cursor.twin source cs = ⟨o + 1, withReturns cs⟩ := by
  have hw := withReturns_of_notMem (w := [c]) (by simpa using hc.symm)
  have ht := exists_twin_append (w := [c]) h
  rwa [hw] at ht

theorem exists_twin_break {cs : List Char} (h : '\n' :: cs <:+ source) :
    ∃ o, Cursor.twin source ('\n' :: cs) = ⟨o, '\r' :: '\n' :: withReturns cs⟩ ∧
      Cursor.twin source cs = ⟨o + 2, withReturns cs⟩ :=
  exists_twin_append (w := ['\n']) h

theorem upTo_twin {a b : Cursor} (h : a.Reaches b) (hn : '\n' ∉ a.upTo b)
    (ha : a.rest <:+ source) :
    (Cursor.twin source a.rest).upTo (Cursor.twin source b.rest) = a.upTo b := by
  rw [h.rest_eq] at ha
  obtain ⟨o, hta, htb⟩ := exists_twin_append ha
  rw [← h.rest_eq] at hta
  rw [hta, htb, upTo_append, withReturns_of_notMem hn]

/-- Whether the ways of a pattern in the source with returns are the twins of its ways in the
source. -/
def Mirrors (source : List Char) (q : Pattern) : Prop :=
  ∀ a : Cursor, a.rest <:+ source →
    q.runs (Cursor.twin source a.rest) = (q.runs a).map (Run.twin source)

/-- Whether a pattern has no way from a break on. -/
def IsBlind (q : Pattern) : Prop := ∀ o cs, q.runs ⟨o, '\n' :: cs⟩ = []

variable {p q : Pattern} {s : CharSet}

theorem isBlind_seq_chars {w : List Char} (hw : w ≠ []) (hn : '\n' ∉ w) :
    IsBlind (seq (concat (w.map char)) q) := by
  intro o cs
  apply runs_seq_chars_eq_nil
  obtain ⟨d, w, rfl⟩ := List.exists_cons_of_ne_nil hw
  rw [List.cons_prefix_cons]
  rintro ⟨rfl, -⟩
  exact hn List.mem_cons_self

theorem mirrors_empty : Mirrors source empty := fun _ _ => rfl

theorem mirrors_seq (hp : Mirrors source p) (hq : Mirrors source q) : Mirrors source (seq p q) := by
  intro a ha
  have h : ∀ r ∈ p.runs a, (q.runs (r.twin source).stop).map (r.twin source).andThen =
      ((q.runs r.stop).map r.andThen).map (Run.twin source) := by
    intro r hr
    have hs := (reaches_of_mem_runs hr).isSuffix.trans ha
    rw [Run.twin, hq _ hs, List.map_map, List.map_map]
    rfl
  rw [runs_seq, runs_seq, hp a ha, List.flatMap_map, List.map_flatMap]
  exact congrArg List.flatten (List.map_congr_left h)

theorem mirrors_alt (hp : Mirrors source p) (hq : Mirrors source q) : Mirrors source (alt p q) := by
  intro a ha
  rw [runs, runs, List.map_append, hp a ha, hq a ha]

theorem mirrors_group (i : Nat) (hp : Mirrors source p)
    (hn : ∀ a, ∀ r ∈ p.runs a, '\n' ∉ a.upTo r.stop) : Mirrors source (group i p) := by
  intro a ha
  rw [runs, runs, hp a ha, List.map_map, List.map_map]
  apply List.map_congr_left
  intro r hr
  simp only [Function.comp_apply, Run.twin, upTo_twin (reaches_of_mem_runs hr) (hn a r hr) ha]

theorem mirrors_seq_chars {w : List Char} (hn : '\n' ∉ w) (hr : '\r' ∉ w) (hq : Mirrors source q) :
    Mirrors source (seq (concat (w.map char)) q) := by
  rintro ⟨o, cs⟩ hcs
  by_cases hp : w <+: cs
  · obtain ⟨y, rfl⟩ := hp
    obtain ⟨o', ht, hy⟩ := exists_twin_append hcs
    rw [withReturns_of_notMem hn] at ht hy
    rw [runs_seq_chars_append, ht, runs_seq_chars_append, ← hy]
    exact hq ⟨_, y⟩ ((List.suffix_append _ _).trans hcs)
  · have hp' : ¬ w <+: withReturns cs := mt (prefix_withReturns_iff hn hr).mp hp
    rw [runs_seq_chars_eq_nil q o hp, Cursor.twin, runs_seq_chars_eq_nil q _ hp']
    rfl

theorem mirrors_chars {w : List Char} (hn : '\n' ∉ w) (hr : '\r' ∉ w) :
    Mirrors source (concat (w.map char)) := by
  intro a ha
  have h := mirrors_seq_chars hn hr mirrors_empty a ha
  rwa [runs_seq_empty, runs_seq_empty] at h

def further (s : CharSet) (o : Nat) : List Char → List Cursor
  | [] => []
  | c :: cs => if s.contains c then stretch s (o + 1) cs else []

theorem stretch_eq (s : CharSet) (o : Nat) (cs : List Char) :
    stretch s o cs = further s o cs ++ [⟨o, cs⟩] := by
  cases cs <;> rfl

theorem runs_plus_further (s : CharSet) (a : Cursor) :
    (plus true (one s)).runs a = (further s a.offset a.rest).map (⟨·, []⟩) := by
  obtain ⟨o, _ | ⟨c, cs⟩⟩ := a
  · rfl
  · rw [runs_plus_one, further]
    split <;> rfl

theorem mem_stretch_of_mem_further {o : Nat} {cs : List Char} {b : Cursor}
    (h : b ∈ further s o cs) : b ∈ stretch s o cs := by
  rw [stretch_eq]
  exact List.mem_append_left _ h

theorem reaches_of_mem_stretch {o : Nat} {cs : List Char} {b : Cursor} (h : b ∈ stretch s o cs) :
    Cursor.Reaches ⟨o, cs⟩ b := by
  obtain ⟨w, -, hw, ho⟩ := mem_stretch s o h
  exact ⟨w, hw, ho⟩

variable {f f' : Cursor → List Run}

/-- The points of a stretch in the source with returns are twins of points of the stretch in the
source, or lie between a return and its break, where nothing goes on. -/
theorem flatMap_further_twin (hs : s.contains '\n' = true → s.contains '\r' = true)
    (hb : s.contains '\r' = true → ∀ o cs, f' ⟨o, '\n' :: cs⟩ = []) (o : Nat) {cs : List Char}
    (h : ∀ b ∈ further s o cs, f' (.twin source b.rest) = (f b).map (Run.twin source))
    (hcs : cs <:+ source) :
    (further s (Cursor.twin source cs).offset (withReturns cs)).flatMap f' =
      ((further s o cs).flatMap f).map (Run.twin source) := by
  induction cs generalizing o with
  | nil => rfl
  | cons c cs ih =>
    have hcs' : cs <:+ source := (List.suffix_cons c cs).trans hcs
    by_cases hc : s.contains c = true
    · have hf : further s o (c :: cs) = further s (o + 1) cs ++ [⟨o + 1, cs⟩] := by
        rw [further, if_pos hc, stretch_eq]
      rw [hf] at h ⊢
      have hi := ih (o + 1) (fun b hb => h b (List.mem_append_left _ hb)) hcs'
      have hl : f' (.twin source cs) = (f ⟨o + 1, cs⟩).map (Run.twin source) :=
        h ⟨o + 1, cs⟩ (List.mem_append_right _ List.mem_cons_self)
      rw [List.flatMap_append, List.map_append, List.flatMap_singleton, ← hi, ← hl]
      -- a break has one point more in the source with returns, from which nothing goes on
      by_cases hn : c = '\n'
      · subst hn
        have hr := hs hc
        obtain ⟨o', ht, ht'⟩ := exists_twin_break hcs
        have hw : further s o' ('\r' :: '\n' :: withReturns cs) =
            further s (o' + 2) (withReturns cs) ++ [⟨o' + 2, withReturns cs⟩] ++
              [⟨o' + 1, '\n' :: withReturns cs⟩] := by
          rw [further, if_pos hr, stretch_eq, further, if_pos hc, stretch_eq]
        rw [ht, ht', withReturns_break, hw, List.flatMap_append, List.flatMap_append,
          List.flatMap_singleton, List.flatMap_singleton, hb hr, List.append_nil]
      · obtain ⟨o', ht, ht'⟩ := exists_twin_cons hn hcs
        rw [ht, ht', withReturns_cons hn, further, if_pos hc, stretch_eq, List.flatMap_append,
          List.flatMap_singleton]
    · rw [further, if_neg hc]
      by_cases hn : c = '\n'
      · subst hn
        rw [withReturns_break, further]
        split
        · rename_i hr
          rw [stretch_eq, further, if_neg hc, List.nil_append, List.flatMap_singleton, hb hr]
          rfl
        · rfl
      · rw [withReturns_cons hn, further, if_neg hc]
        rfl

theorem flatMap_stretch_twin (hs : s.contains '\n' = true → s.contains '\r' = true)
    (hb : s.contains '\r' = true → ∀ o cs, f' ⟨o, '\n' :: cs⟩ = []) (o : Nat) {cs : List Char}
    (h : ∀ b ∈ stretch s o cs, f' (.twin source b.rest) = (f b).map (Run.twin source))
    (hcs : cs <:+ source) :
    (stretch s (Cursor.twin source cs).offset (withReturns cs)).flatMap f' =
      ((stretch s o cs).flatMap f).map (Run.twin source) := by
  rw [stretch_eq] at h
  have hf := flatMap_further_twin hs hb o (fun b hb => h b (List.mem_append_left _ hb)) hcs
  have hl : f' (.twin source cs) = (f ⟨o, cs⟩).map (Run.twin source) :=
    h ⟨o, cs⟩ (List.mem_append_right _ List.mem_cons_self)
  rw [stretch_eq, stretch_eq, List.flatMap_append, List.flatMap_append, List.map_append, hf,
    List.flatMap_singleton, List.flatMap_singleton, ← hl]
  rfl

theorem mirrors_seq_star (hs : s.contains '\n' = true → s.contains '\r' = true)
    (hq : Mirrors source q) (hb : IsBlind q) : Mirrors source (seq (star true (one s)) q) := by
  rintro ⟨o, cs⟩ hcs
  rw [Cursor.twin, runs_seq_star, runs_seq_star]
  apply flatMap_stretch_twin hs (fun _ => hb) o ?_ hcs
  intro b hm
  exact hq b ((reaches_of_mem_stretch hm).isSuffix.trans hcs)

theorem mirrors_seq_plus (hs : s.contains '\n' = true → s.contains '\r' = true)
    (hq : Mirrors source q) (hb : IsBlind q) : Mirrors source (seq (plus true (one s)) q) := by
  rintro ⟨o, cs⟩ hcs
  simp only [runs_seq, runs_plus_further, List.flatMap_map, map_andThen_no_groups]
  apply flatMap_further_twin hs (fun _ => hb) o ?_ hcs
  intro b hm
  exact hq b ((reaches_of_mem_stretch (mem_stretch_of_mem_further hm)).isSuffix.trans hcs)

section Group

variable (i : Nat) (hs : s.contains '\n' = false)

/-- The ways that go on with `q` where a group has taken the text from `a` on. -/
def waysBehind (q : Pattern) (a b : Cursor) : List Run :=
  (q.runs b).map (Run.andThen ⟨b, [(i, a.upTo b)]⟩)

include hs in
theorem waysBehind_twin (hq : Mirrors source q) {a b : Cursor} (ha : a.rest <:+ source)
    (h : b ∈ stretch s a.offset a.rest) :
    waysBehind i q (.twin source a.rest) (.twin source b.rest) =
      (waysBehind i q a b).map (Run.twin source) := by
  have hr : a.Reaches b := reaches_of_mem_stretch h
  have hn : '\n' ∉ a.upTo b := by
    obtain ⟨w, hw, he, ho⟩ := mem_stretch s a.offset h
    rw [Cursor.upTo, ho, Nat.add_sub_cancel_left, he, List.take_left]
    intro hm
    rw [hw _ hm] at hs
    cases hs
  rw [waysBehind, waysBehind, hq b (hr.isSuffix.trans ha), upTo_twin hr hn ha, List.map_map,
    List.map_map]
  rfl

include hs in
theorem mirrors_seq_group_star (hq : Mirrors source q) (hb : s.contains '\r' = true → IsBlind q) :
    Mirrors source (seq (group i (star true (one s))) q) := by
  rintro ⟨o, cs⟩ hcs
  rw [runs_seq_group_star, Cursor.twin, runs_seq_group_star]
  apply flatMap_stretch_twin (fun h => by rw [hs] at h; cases h) ?_ o ?_ hcs
  · intro hr o cs
    rw [hb hr]
    rfl
  · exact fun b hm => waysBehind_twin i hs hq hcs hm

include hs in
theorem mirrors_seq_group_plus (hq : Mirrors source q) (hb : s.contains '\r' = true → IsBlind q) :
    Mirrors source (seq (group i (plus true (one s))) q) := by
  rintro ⟨o, cs⟩ hcs
  simp only [runs_seq_group, runs_plus_further, List.flatMap_map]
  apply flatMap_further_twin (fun h => by rw [hs] at h; cases h) ?_ o ?_ hcs
  · intro hr o cs
    rw [hb hr]
    rfl
  · exact fun b hm => waysBehind_twin i hs hq hcs (mem_stretch_of_mem_further hm)

include hs in
theorem mirrors_group_star (hr : s.contains '\r' = false) :
    Mirrors source (group i (star true (one s))) := by
  intro a ha
  have h := mirrors_seq_group_star i hs mirrors_empty (fun h => by rw [hr] at h; cases h) a ha
  rwa [runs_seq_empty, runs_seq_empty] at h

end Group

/-! Searches for a pattern that begins with a break. -/

/-- A match is found in the source with returns where its twin is found in the source. -/
theorem findFrom?_twin (hq : Mirrors source q) (o : Nat) {cs : List Char} (h : cs <:+ source) :
    (seq (char '\n') q).findFrom? (Cursor.twin source cs).offset (withReturns cs) =
      ((seq (char '\n') q).findFrom? o cs).map (Match.twin source) := by
  induction cs generalizing o with
  | nil => rfl
  | cons c cs ih =>
    have hcs : cs <:+ source := (List.suffix_cons c cs).trans h
    by_cases hc : c = '\n'
    · subst hc
      obtain ⟨o', ht, ht'⟩ := exists_twin_break h
      have hr := hq ⟨o + 1, cs⟩ hcs
      have hi := ih (o + 1) hcs
      dsimp only at hr
      rw [ht'] at hr hi
      rw [ht, withReturns_break, findFrom?_seq_char_of_ne (by decide), findFrom?_seq_char_self,
        findFrom?_seq_char_self, hr, hi, List.head?_map]
      cases (q.runs ⟨o + 1, cs⟩).head? with
      | none => rfl
      | some r => simp [Match.twin, ht]
    · obtain ⟨o', ht, ht'⟩ := exists_twin_cons hc h
      have hi := ih (o + 1) hcs
      rw [ht'] at hi
      rw [ht, withReturns_cons hc, findFrom?_seq_char_of_ne hc, findFrom?_seq_char_of_ne hc, hi]

theorem find?_withReturns (hq : Mirrors source q) :
    (seq (char '\n') q).find? (withReturns source) =
      ((seq (char '\n') q).find? source).map (Match.twin source) := by
  have h := findFrom?_twin hq 0 (List.suffix_refl source)
  rwa [Cursor.twin, Nat.sub_self] at h

theorem length_withReturns_lt {x y : List Char} (h : x.length < y.length) (hs : x <:+ y) :
    (withReturns x).length < (withReturns y).length := by
  obtain ⟨w, rfl⟩ := hs
  have hw := length_le_length_withReturns w
  rw [List.length_append] at h
  rw [withReturns_append, List.length_append]
  omega

theorem findAllFrom_twin (hq : Mirrors source q) {a : Cursor} (ha : a.rest <:+ source) {n k : Nat}
    (hn : a.rest.length < n) (hk : (withReturns a.rest).length < k) (last last' : Option Nat) :
    (seq (char '\n') q).findAllFrom k (.twin source a.rest) last' =
      ((seq (char '\n') q).findAllFrom n a last).map (Match.twin source) := by
  induction n generalizing a k last last' with
  | zero => exact absurd hn (Nat.not_lt_zero _)
  | succ n ih =>
    obtain ⟨k, rfl⟩ := Nat.exists_eq_add_of_lt (Nat.zero_lt_of_lt hk)
    rw [Nat.zero_add] at hk ⊢
    have ht := findFrom?_twin hq a.offset ha
    rw [findAllFrom, findAllFrom, next?_seq_char, next?_seq_char, Cursor.twin]
    rw [Cursor.twin] at ht
    dsimp only at ht ⊢
    rw [ht]
    cases hm : (seq (char '\n') q).findFrom? a.offset a.rest with
    | none => rfl
    | some m =>
      obtain ⟨hr, hstart⟩ := mem_runs_of_findFrom? hm
      obtain ⟨y, hy, hs⟩ := exists_of_mem_runs_seq_char hr
      have hyr : '\n' :: y <:+ a.rest := hy ▸ hstart.isSuffix
      have hsy : m.stop.rest <:+ y := hs.isSuffix
      have hsuf : m.stop.rest <:+ a.rest := hsy.trans ((List.suffix_cons '\n' y).trans hyr)
      have hl : m.stop.rest.length < a.rest.length :=
        Nat.lt_of_lt_of_le (Nat.lt_succ_of_le hsy.length_le) hyr.length_le
      have hn : m.stop.rest.length < n := Nat.lt_of_lt_of_le hl (Nat.le_of_lt_succ hn)
      have hk : (withReturns m.stop.rest).length < k :=
        Nat.lt_of_lt_of_le (length_withReturns_lt hl hsuf) (Nat.le_of_lt_succ hk)
      exact congrArg _ (ih (hsuf.trans ha) hn hk _ _)

theorem findAll_withReturns (hq : Mirrors source q) :
    (seq (char '\n') q).findAll (withReturns source) =
      ((seq (char '\n') q).findAll source).map (Match.twin source) := by
  have hn : ∀ cs : List Char, cs.length < 2 * cs.length + 2 := fun _ => by omega
  have h := findAllFrom_twin hq (a := .start source) (List.suffix_refl source) (hn _) (hn _) none none
  rwa [Cursor.start, Cursor.twin, Nat.sub_self] at h

end Pattern

end EndpointCatalog
