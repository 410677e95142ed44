import EndpointCatalog.Yaml.Value
import EndpointCatalog.Proofs.Text.Numeral
import EndpointCatalog.Proofs.Yaml.Input

namespace EndpointCatalog.Yaml.Quoted

open Text.Numeral Value

theorem hexValue?_hexDigit {n : Nat} (hn : n < 16) : hexValue? (hexDigit n) = some n := by
  have h : ∀ n < 16, hexValue? (hexDigit n) = some n := by decide
  exact h n hn

theorem length_hexDigits (n w : Nat) : (hexDigits n w).length = w := by
  induction w generalizing n with
  | zero => rfl
  | succ w ih => rw [hexDigits, List.length_append, ih, List.length_singleton]

theorem hexNumber?_hexDigits {n w : Nat} (hn : n < Nat.pow 16 w) :
    hexNumber? (hexDigits n w) = some n := by
  induction w generalizing n with
  | zero =>
    have hz : n = 0 := Nat.lt_one_iff.mp hn
    rw [hz]
    rfl
  | succ w ih =>
    have hd : n / 16 < Nat.pow 16 w := by
      rw [Nat.div_lt_iff_lt_mul (by decide)]
      exact hn
    have h := ih hd
    have hv : hexValue? (hexDigit (n % 16)) = some (n % 16) :=
      hexValue?_hexDigit (Nat.mod_lt n (by decide))
    rw [hexNumber?] at h
    rw [hexNumber?, hexDigits, List.foldl_append, h]
    simp only [List.foldl_cons, List.foldl_nil, Option.bind_some, hv, Option.map_some,
      Option.some.injEq]
    exact Nat.div_add_mod n 16

theorem escaped?_hexDigits {l c : Char} {w : Nat} (hl : codeLength? l = some w)
    (hc : c.toNat < Nat.pow 16 w) (r : List Char) :
    escaped? l (hexDigits c.toNat w ++ r) = some (c, w) := by
  have ht : (hexDigits c.toNat w ++ r).take w = hexDigits c.toNat w :=
    List.take_left' (length_hexDigits _ _)
  simp only [escaped?, hl, ht, length_hexDigits, if_true, hexNumber?_hexDigits hc,
    Option.bind_some, charOf?_toNat, Option.map_some]

theorem letters_spec :
    ∀ p ∈ letters, isBreak p.1 = false ∧ codeLength? p.1 = none ∧
      letters.lookup p.1 = some p.2 := by
  decide

theorem escape_spec (c : Char) :
    ∃ l t, escape c = '\\' :: l :: t ∧ isBreak l = false ∧
      ∀ r, escaped? l (t ++ r) = some (c, t.length) := by
  cases hl : letterOf? c with
  | some l =>
    obtain ⟨p, hp, rfl⟩ := Option.map_eq_some_iff.mp hl
    have hc : p.2 = c := by simpa using List.find?_some hp
    obtain ⟨hb, hn, hk⟩ := letters_spec p (List.mem_of_find?_eq_some hp)
    refine ⟨p.1, [], by rw [escape, hl], hb, fun r => ?_⟩
    simp [escaped?, hn, hk, hc]
  | none =>
    by_cases h2 : c.toNat ≤ 0xFF
    · refine ⟨'x', hexDigits c.toNat 2, by simp [escape, hl, h2], rfl, fun r => ?_⟩
      rw [length_hexDigits]
      exact escaped?_hexDigits rfl (Nat.lt_succ_of_le h2) r
    · by_cases h4 : c.toNat ≤ 0xFFFF
      · refine ⟨'u', hexDigits c.toNat 4, by simp [escape, hl, h2, h4], rfl, fun r => ?_⟩
        rw [length_hexDigits]
        exact escaped?_hexDigits rfl (Nat.lt_succ_of_le h4) r
      · refine ⟨'U', hexDigits c.toNat 8, by simp [escape, hl, h2, h4], rfl, fun r => ?_⟩
        rw [length_hexDigits]
        exact escaped?_hexDigits rfl (Nat.lt_of_lt_of_le c.val.toNat_lt (by decide)) r

theorem readFrom_escape (c : Char) (g : Gap) {m : Mark} (hm : 0 < m.column) (r : List Char) :
    ∃ m', 0 < m'.column ∧ readFrom false g m (escape c ++ r) =
      (readFrom false {} m' r).map fun (s, i) => (g.text ++ c :: s, i) := by
  obtain ⟨l, t, he, hb, hr⟩ := escape_spec c
  refine ⟨m.nextBy (t.length + 2), by simp only [Mark.nextBy]; omega, ?_⟩
  have hs : isBlank '\\' = false := rfl
  have hn : isBreak '\\' = false := rfl
  have hn' : ∀ cs, atReturn '\\' cs = false := fun _ => rfl
  have hl : atReturn l (t ++ r) = false := atReturn_of_isBreak_eq_false hb _
  rw [he, List.cons_append, List.cons_append, readFrom.eq_def]
  simp [hs, hn, hn', Nat.ne_of_gt hm, hb, hr, hl]

theorem readFrom_shown {c : Char} (hc : needsEscape c = false) (hs : c ≠ ' ') (g : Gap) {m : Mark}
    (hm : 0 < m.column) (r : List Char) :
    readFrom false g m (c :: r) =
      (readFrom false {} m.next r).map fun (s, i) => (g.text ++ c :: s, i) := by
  simp only [needsEscape, Bool.or_eq_false_iff, Bool.not_eq_false', beq_eq_false_iff_ne] at hc
  obtain ⟨⟨⟨hp, hb⟩, hq⟩, he⟩ := hc
  have hk : isBlank c = false := by
    rw [← Bool.not_eq_true]
    exact fun h => hs (eq_space_of_isBlank hp h)
  rw [readFrom.eq_def]
  simp [hk, hb, atReturn_of_isBreak_eq_false hb, Nat.ne_of_gt hm, hq, he]

def shown (c : Char) : List Char := if needsEscape c then escape c else [c]

theorem writeDouble_eq (s : List Char) : writeDouble s = '"' :: (s.flatMap shown ++ ['"']) := rfl

theorem readFrom_double (s r : List Char) {w : List Char} {m : Mark} (hm : 0 < m.column) :
    ∃ m', readFrom false ⟨w, [], false⟩ m (s.flatMap shown ++ '"' :: r) =
      some (w ++ s, ⟨m', r⟩) := by
  induction s generalizing w m with
  | nil =>
    have hb : isBreak '"' = false := rfl
    have hb' : ∀ cs, atReturn '"' cs = false := fun _ => rfl
    refine ⟨m.next, ?_⟩
    rw [List.flatMap_nil, List.nil_append, readFrom.eq_def]
    simp [isBlank, hb, hb', Nat.ne_of_gt hm, Gap.text]
  | cons c s ih =>
    rw [List.flatMap_cons, List.append_assoc, shown]
    cases hc : needsEscape c with
    | true =>
      obtain ⟨m', hm', h⟩ := readFrom_escape c ⟨w, [], false⟩ hm (s.flatMap shown ++ '"' :: r)
      obtain ⟨m'', h'⟩ := ih (w := []) hm'
      refine ⟨m'', ?_⟩
      rw [if_pos rfl, h, h']
      simp [Gap.text]
    | false =>
      rw [if_neg (by simp), List.singleton_append]
      by_cases hs : c = ' '
      · subst hs
        obtain ⟨m', h⟩ := ih (w := w ++ [' ']) (m := m.next) (Nat.succ_pos _)
        refine ⟨m', ?_⟩
        rw [List.append_assoc w [' '] s] at h
        rw [readFrom.eq_def]
        exact h
      · obtain ⟨m', h⟩ := ih (w := []) (m := m.next) (Nat.succ_pos _)
        refine ⟨m', ?_⟩
        rw [readFrom_shown hc hs _ hm, h]
        simp [Gap.text]

theorem hasPair_cons {p q : Char → Bool} {c : Char} {s : List Char}
    (h : hasPair p q (c :: s) = false) :
    hasPair p q s = false ∧ (p c = true → ∀ d ∈ s.head?, q d = false) := by
  cases s with
  | nil => exact ⟨rfl, fun _ _ hd => by cases hd⟩
  | cons d s =>
    simp only [hasPair, Bool.or_eq_false_iff] at h
    refine ⟨h.2, fun hc e he => ?_⟩
    obtain rfl := Option.some.inj he
    simpa [hc] using h.1

structure IsSingle (s : List Char) : Prop where
  shown : ∀ c ∈ s, isPrintable c = true ∧ c ≠ '\n'
  spaceBreak : hasPair isSpace isBreak s = false
  breakSpace : hasPair isBreak isSpace s = false

theorem IsSingle.tail {c : Char} {s : List Char} (h : IsSingle (c :: s)) : IsSingle s where
  shown d hd := h.shown d (List.mem_cons_of_mem c hd)
  spaceBreak := (hasPair_cons h.spaceBreak).1
  breakSpace := (hasPair_cons h.breakSpace).1

/-- What the spaces `w` and the breaks `l` just passed say of each other and of what is to come. -/
structure IsGap (w l s : List Char) : Prop where
  lone : w = [] ∨ l = []
  noBreak : w ≠ [] → ∀ c ∈ s.head?, isBreak c = false
  noSpace : l ≠ [] → ∀ c ∈ s.head?, isSpace c = false
  noLineFeed : '\n' ∉ l

namespace IsGap

variable {w l s : List Char} {c : Char}

theorem nil (s : List Char) : IsGap [] [] s where
  lone := .inl rfl
  noBreak h := absurd rfl h
  noSpace h := absurd rfl h
  noLineFeed := List.not_mem_nil

theorem text (h : IsGap w l s) : (⟨w, l, false⟩ : Gap).text = w ++ l := by
  cases l with
  | nil => simp [Gap.text]
  | cons b l =>
    obtain rfl | hl := h.lone
    · have hb : b ≠ '\n' := fun he => h.noLineFeed (by simp [he])
      simp only [Gap.text, Bool.false_eq_true, if_false]
      split <;> simp_all
    · cases hl

theorem spaces_eq_nil (h : IsGap w l (c :: s)) (hb : isBreak c = true) : w = [] :=
  Classical.byContradiction fun hne =>
    Bool.false_ne_true ((h.noBreak hne c rfl).symm.trans hb)

theorem breaks_eq_nil (h : IsGap w l (' ' :: s)) : l = [] :=
  Classical.byContradiction fun hne => Bool.false_ne_true (h.noSpace hne ' ' rfl).symm

theorem addBreak (h : IsGap [] l (c :: s)) (hs : IsSingle (c :: s)) (hb : isBreak c = true) :
    IsGap [] (l ++ [c]) s where
  lone := .inl rfl
  noBreak hne := absurd rfl hne
  noSpace _ := (hasPair_cons hs.breakSpace).2 hb
  noLineFeed := by
    have hc : c ≠ '\n' := (hs.shown c List.mem_cons_self).2
    simp [h.noLineFeed, Ne.symm hc]

theorem addSpace (hs : IsSingle (' ' :: s)) : IsGap (w ++ [' ']) [] s where
  lone := .inr rfl
  noBreak _ := (hasPair_cons hs.spaceBreak).2 rfl
  noSpace hne := absurd rfl hne
  noLineFeed := List.not_mem_nil

end IsGap

theorem readFrom_spaces (k : Nat) {g : Gap} (hg : g.broken = true) (single : Bool) (m : Mark)
    (r : List Char) :
    readFrom single g m (spaces k ++ r) = readFrom single g (m.nextBy k) r := by
  induction k generalizing m with
  | zero => rfl
  | succ k ih =>
    have ha : g.addBlank ' ' = g := by rw [Gap.addBlank, hg, if_pos rfl]
    rw [spaces_succ, List.cons_append, readFrom.eq_def]
    simp only [isBlank, beq_self_eq_true, Bool.true_or, if_true, ha, ih, Mark.next_nextBy]

/-- What stands in front of the next character: the indentation, if a break came before. -/
theorem readFrom_margin {n : Nat} (hn : 0 < n) {w l : List Char} {m : Mark}
    (hm : l = [] → 0 < m.column) :
    ∃ m', 0 < m'.column ∧ ∀ r,
      readFrom true ⟨w, l, false⟩ m ((if !l.isEmpty then spaces n else []) ++ r) =
        readFrom true ⟨w, l, false⟩ m' r := by
  cases l with
  | nil => exact ⟨m, hm rfl, fun r => rfl⟩
  | cons b l =>
    refine ⟨m.nextBy n, by simp only [Mark.nextBy]; omega, fun r => ?_⟩
    exact readFrom_spaces n rfl true m r

theorem readFrom_closing {g : Gap} {m : Mark} (hm : 0 < m.column) {r : List Char}
    (hr : r.head? ≠ some '\'') :
    readFrom true g m ('\'' :: r) = some (g.text, ⟨m.next, r⟩) := by
  have hb : isBreak '\'' = false := rfl
  have hb' : ∀ cs, atReturn '\'' cs = false := fun _ => rfl
  rw [readFrom.eq_def]
  simp only [isBlank, hb, hb', Nat.ne_of_gt hm]
  cases r with
  | nil => rfl
  | cons c r =>
    have hc : c ≠ '\'' := fun h => hr (by rw [h]; rfl)
    split
    · simp_all
    · simp_all

theorem readFrom_doubled {c : Char} (hp : isPrintable c = true) (hb : isBreak c = false)
    (hs : c ≠ ' ') (g : Gap) {m : Mark} (hm : 0 < m.column) (r : List Char) :
    ∃ m', 0 < m'.column ∧
      readFrom true g m ((if c = '\'' then ['\''] else []) ++ c :: r) =
        (readFrom true {} m' r).map fun (s, i) => (g.text ++ c :: s, i) := by
  have hk : isBlank c = false := by
    rw [← Bool.not_eq_true]
    exact fun h => hs (eq_space_of_isBlank hp h)
  have hr : ∀ cs, atReturn c cs = false := atReturn_of_isBreak_eq_false hb
  by_cases hc : c = '\''
  · subst hc
    refine ⟨m.nextBy 2, by simp only [Mark.nextBy]; omega, ?_⟩
    rw [if_pos rfl, List.singleton_append, readFrom.eq_def]
    simp [hk, hb, hr, Nat.ne_of_gt hm]
  · refine ⟨m.next, Nat.succ_pos _, ?_⟩
    rw [if_neg hc, List.nil_append, readFrom.eq_def]
    simp [hk, hb, hr, Nat.ne_of_gt hm, hc]

theorem readFrom_single {n : Nat} (hn : 0 < n) {s r : List Char} (hr : r.head? ≠ some '\'')
    (hs : IsSingle s) {w l : List Char} (hg : IsGap w l s) {m : Mark}
    (hm : l = [] → 0 < m.column) :
    ∃ m', readFrom true ⟨w, l, false⟩ m (singleFrom n (!l.isEmpty) s ++ r) =
      some (w ++ l ++ s, ⟨m', r⟩) := by
  induction s generalizing w l m with
  | nil =>
    obtain ⟨m', hm', h⟩ := readFrom_margin hn (w := w) hm
    refine ⟨m'.next, ?_⟩
    rw [singleFrom, List.append_assoc, h, List.singleton_append, readFrom_closing hm' hr, hg.text,
      List.append_nil]
  | cons c s ih =>
    obtain ⟨hp, -⟩ := hs.shown c List.mem_cons_self
    -- white space is gathered in `w` and `l` and given out in front of the next character
    cases hb : isBreak c with
    | true =>
      obtain rfl := hg.spaces_eq_nil hb
      obtain ⟨m', h⟩ := ih hs.tail (hg.addBreak hs hb) (m := m.newLine) (by simp)
      refine ⟨m', ?_⟩
      have he : (!(l ++ [c]).isEmpty) = true := by simp
      rw [he] at h
      rw [singleFrom, if_pos hb, List.cons_append, readFrom.eq_def]
      simp only [isBlank_of_isBreak hb, atReturn_of_isPrintable hp, hb, Gap.addBreak,
        breakOf_of_isPrintable hp hb]
      simpa using h
    | false =>
      by_cases hc : c = ' '
      · subst hc
        obtain rfl := hg.breaks_eq_nil
        obtain ⟨m', h⟩ := ih hs.tail (IsGap.addSpace hs (w := w)) (m := m.next)
          fun _ => Nat.succ_pos _
        refine ⟨m', ?_⟩
        have he : w ++ [] ++ ' ' :: s = w ++ [' '] ++ [] ++ s := by simp
        rw [singleFrom, hb, readFrom.eq_def, he]
        exact h
      · obtain ⟨m₁, hm₁, h₁⟩ := readFrom_margin hn (w := w) hm
        obtain ⟨m₂, hm₂, h₂⟩ := readFrom_doubled hp hb hc ⟨w, l, false⟩ hm₁
          (singleFrom n false s ++ r)
        obtain ⟨m', h⟩ := ih hs.tail (IsGap.nil s) (m := m₂) fun _ => hm₂
        refine ⟨m', ?_⟩
        have he : singleFrom n (!l.isEmpty) (c :: s) ++ r =
            (if !l.isEmpty then spaces n else []) ++
              ((if c = '\'' then ['\''] else []) ++ c :: (singleFrom n false s ++ r)) := by
          rw [singleFrom, hb]
          simp
        rw [he, h₁, h₂]
        rw [List.isEmpty_nil, Bool.not_true] at h
        rw [h, Option.map_some, hg.text]
        simp

theorem singleFrom_eq (n : Nat) (broken : Bool) (s : List Char) :
    ∃ y, singleFrom n broken s = y ++ ['\''] := by
  induction s generalizing broken with
  | nil => exact ⟨_, rfl⟩
  | cons c s ih =>
    obtain ⟨y, hy⟩ := ih true
    obtain ⟨z, hz⟩ := ih false
    rw [singleFrom, hy, hz]
    split
    · exact ⟨c :: y, rfl⟩
    · exact ⟨_, (List.append_assoc _ (c :: z) _).symm⟩

end EndpointCatalog.Yaml.Quoted
