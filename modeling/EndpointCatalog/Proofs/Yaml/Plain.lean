import EndpointCatalog.Yaml.Plain
import EndpointCatalog.Proofs.Yaml.Input

namespace EndpointCatalog.Yaml.Plain

open Quoted

theorem ends_eq_false {c : Char} {s r : List Char} {spaced : Bool}
    (hp : ∀ d ∈ s, isPrintable d = true ∧ isBreak d = false)
    (hs : hasBreakingSign spaced (c :: s) = false) : ends false c (s ++ r) = false := by
  simp only [hasBreakingSign, Bool.or_eq_false_iff, Bool.and_eq_false_iff] at hs
  obtain ⟨⟨hc | hc, -⟩, -⟩ := hs
  · rw [ends, hc, Bool.false_and, Bool.false_and, Bool.or_false]
  · cases s with
    | nil => exact absurd hc (by decide)
    | cons d s =>
      obtain ⟨hd, hb⟩ := hp d (by simp)
      have hn : d ≠ ' ' := by
        rw [beforeSpace] at hc
        exact beq_eq_false_iff_ne.mp hc
      rw [ends, List.cons_append, atGap_of_isPrintable hd hb hn]
      simp

theorem hasBreakingSign_mono {b : Bool} {s : List Char} (hs : hasBreakingSign true s = false) :
    hasBreakingSign b s = false := by
  cases s with
  | nil => rfl
  | cons c s =>
    simp only [hasBreakingSign, Bool.or_eq_false_iff, Bool.and_eq_false_iff] at hs ⊢
    obtain ⟨⟨h, hc | hc⟩, ht⟩ := hs
    · exact ⟨⟨h, .inl hc⟩, ht⟩
    · cases hc

theorem readFrom_shown {c : Char} (hp : isPrintable c = true) (hb : isBreak c = false)
    (hs : c ≠ ' ') {n : Int} {w : List Char} {m : Mark} (hm : 0 < m.column)
    (hw : w = [] ∨ (c == '#') = false ∧ n ≤ m.column) {x : List Char}
    (he : ends false c x = false) :
    readFrom false n ⟨w, [], false⟩ m (c :: x) =
      (readFrom false n {} m.next x).map fun (t, b, i) => (w ++ c :: t, b, i) := by
  have hblank : isBlank c = false := by
    rw [← Bool.not_eq_true]
    exact fun h => hs (eq_space_of_isBlank hp h)
  have hstop : (!(⟨w, [], false⟩ : Gap).isEmpty &&
      (c == '#' || (!false && decide (m.column < n)))) = false := by
    obtain rfl | ⟨hc, hn⟩ := hw
    · rfl
    · simp [hc, hn]
  have hmark : (decide (m.column = 0) && atDocumentMark (c :: x)) = false := by
    simp [Nat.ne_of_gt hm]
  rw [readFrom, hblank, atReturn_of_isPrintable hp, hb, hstop, hmark, he]
  simp [Gap.text]

/-- A text is read up to its end. -/
theorem readFrom_append {s : List Char} (r : List Char) {n : Int} {w : List Char} {m : Mark}
    (hs : s ≠ []) (hp : ∀ c ∈ s, isPrintable c = true ∧ isBreak c = false)
    (hl : s.getLast? ≠ some ' ') (hb : hasBreakingSign (!w.isEmpty) s = false)
    (hn : n ≤ m.column ∨ w = [] ∧ ' ' ∉ s) (hm : 0 < m.column) :
    readFrom false n ⟨w, [], false⟩ m (s ++ r) =
      (readFrom false n {} (m.nextBy s.length) r).map fun (t, b, i) => (w ++ s ++ t, b, i) := by
  induction s generalizing w m with
  | nil => exact absurd rfl hs
  | cons c s ih =>
    have hps : ∀ d ∈ s, isPrintable d = true ∧ isBreak d = false := fun d hd => hp d (by simp [hd])
    have hls : s ≠ [] → s.getLast? ≠ some ' ' := fun hne => by
      rwa [List.getLast?_cons_of_ne_nil hne] at hl
    have hm' : m.next.nextBy s.length = m.nextBy (c :: s).length := by
      rw [Mark.next_nextBy, List.length_cons]
    have hn' : n ≤ m.column → n ≤ m.next.column := fun h => by
      simp only [Mark.next]
      omega
    have hns : n ≤ m.next.column ∨ ([] : List Char) = [] ∧ ' ' ∉ s :=
      hn.imp hn' fun h => ⟨rfl, fun hm => h.2 (List.mem_cons_of_mem c hm)⟩
    -- a space is kept back until the next character shows that it belongs to the text
    by_cases hc : c = ' '
    · subst hc
      have hne : s ≠ [] := by
        rintro rfl
        exact hl rfl
      have hbs : hasBreakingSign (!(w ++ [' ']).isEmpty) s = false := by
        simp only [hasBreakingSign, Bool.or_eq_false_iff] at hb
        exact hasBreakingSign_mono hb.2
      have hnc : n ≤ m.column := hn.resolve_right fun h => h.2 List.mem_cons_self
      have h := ih (w := w ++ [' ']) (m := m.next) hne hps (hls hne) hbs (.inl (hn' hnc))
        (Nat.succ_pos _)
      rw [List.append_assoc w [' '] s, hm'] at h
      exact h
    · obtain ⟨hpc, hbc⟩ := hp c (by simp)
      have hw : w = [] ∨ (c == '#') = false ∧ n ≤ m.column := by
        simp only [hasBreakingSign, Bool.or_eq_false_iff, Bool.and_eq_false_iff] at hb
        obtain ⟨⟨-, hh | hh⟩, -⟩ := hb
        · exact hn.symm.imp (·.1) fun h => ⟨hh, h⟩
        · exact .inl (by simpa using hh)
      have hrest : readFrom false n {} m.next (s ++ r) =
          (readFrom false n {} (m.nextBy (c :: s).length) r).map
            fun (t, b, i) => (s ++ t, b, i) := by
        by_cases hne : s = []
        · subst hne
          simp [Mark.next_eq]
        · have hbs : hasBreakingSign (c == ' ') s = false := by
            simp only [hasBreakingSign, Bool.or_eq_false_iff] at hb
            exact hb.2
          rw [beq_eq_false_iff_ne.mpr hc] at hbs
          have h := ih (w := []) (m := m.next) hne hps (hls hne) hbs hns (Nat.succ_pos _)
          rwa [hm'] at h
      rw [List.cons_append, readFrom_shown hpc hbc hc hm hw (ends_eq_false hps hb), hrest]
      simp [Option.map_map, Function.comp_def]

theorem readFrom_blanks (k : Nat) {r : List Char} (hr : startsLine r) {n : Int} {g : Gap} {m : Mark}
    (hg : g.breaks ≠ []) (hk : m.column + k < n) :
    readFrom false n g m (spaces k ++ r) = some ([], true, ⟨m.nextBy k, r⟩) := by
  have hb : g.broken = true := by simp [Gap.broken, hg]
  have he : g.isEmpty = false := by simp [Gap.isEmpty, hg]
  induction k generalizing m with
  | zero =>
    cases r with
    | nil => rw [spaces_zero, List.nil_append, readFrom, hb, Mark.nextBy_zero]
    | cons c r =>
      obtain ⟨hs, hl⟩ := isBlank_isBreak_of_startsLine hr
      have hc : (m.column : Int) < n := by omega
      rw [spaces_zero, List.nil_append, readFrom, hs, atReturn_of_isBreak_eq_false hl, hl, hb,
        Mark.nextBy_zero]
      simp [he, hc]
  | succ k ih =>
    have h := ih (m := m.next) (by simp only [Mark.next]; omega)
    have ha : g.addBlank ' ' = g := by rw [Gap.addBlank, hb, if_pos rfl]
    rw [spaces_succ, List.cons_append, readFrom, ha]
    rw [Mark.next_nextBy] at h
    simpa [isBlank] using h

theorem readFrom_break (k : Nat) {r : List Char} (hr : startsLine r) {n : Int} (m : Mark)
    (hk : k < n) :
    readFrom false n {} m ('\n' :: (spaces k ++ r)) =
      some ([], true, ⟨m.newLine.nextBy k, r⟩) := by
  have h := readFrom_blanks k hr (n := n) (g := ⟨[], ['\n'], false⟩) (m := m.newLine) (by simp)
    (by simpa [Mark.newLine] using hk)
  rw [readFrom]
  exact h

theorem readFrom_colon {r : List Char} (hr : atGap r = true) (n : Int) (m : Mark) :
    readFrom false n {} m (':' :: r) = some ([], false, ⟨m, ':' :: r⟩) := by
  simp [readFrom, isBlank, isBreak, atReturn, atDocumentMark, ends, hr, Gap.isEmpty, Gap.broken]

end EndpointCatalog.Yaml.Plain
