import EndpointCatalog.Proofs.Yaml.Block
import EndpointCatalog.Proofs.Yaml.Plain
import EndpointCatalog.Proofs.Yaml.Quoted
import EndpointCatalog.Proofs.Yaml.Scanner

namespace EndpointCatalog.Yaml.Scanner

open Quoted Value

def isPlain (s : List Char) : Bool :=
  !s.contains '\n' && (!Implicit.looksTyped s && Plain.allowed s)

def scalarOf (s : List Char) : Token := .scalar (isPlain s) s

/-- What may stand behind a text: the next line, indented by at most two columns, or nothing. -/
def IsLine (x : List Char) : Prop := ∃ k r, k ≤ 2 ∧ startsLine r ∧ x = spaces k ++ r

/-- A scanner gets to the start of a line. -/
def Reaches (s : Scanner) (x : List Char) (ts : List Token) (is : List Int) : Prop :=
  ∃ (m : Mark) (k? : Option KeyPlace), m.column = 0 ∧ (∀ k ∈ k?, k.required = false) ∧
    Steps s (block m x ts is true k?)

theorem Reaches.of_steps {s t : Scanner} {x : List Char} {ts : List Token} {is : List Int}
    (h : Steps s t) (hr : Reaches t x ts is) : Reaches s x ts is := by
  obtain ⟨m, k?, hm, hk, ht⟩ := hr
  exact ⟨m, k?, hm, hk, h.trans ht⟩

section

variable {m : Mark} {c : Char} {cs x : List Char} {k? : Option KeyPlace}
  (ts : List Token) (is : List Int) (allowed : Bool)

theorem token?_plain (hm : 0 < m.column) (hs : Plain.isSign c = false) (hc : Starts c)
    (hg : c = '-' ∨ c = '?' ∨ c = ':' → atGap cs = false) :
    (block m (c :: cs) ts is allowed k?).token? c cs =
      (block m (c :: cs) ts is allowed k?).plainScalar? := by
  have hf : (block m (c :: cs) ts is allowed k?).inFlow = false := rfl
  have h₁ : (c == '-' && atGap cs) = false := by
    by_cases h : c = '-'
    · rw [hg (.inl h), Bool.and_false]
    · simp [h]
  have h₂ : (c == '?' && atGap cs) = false := by
    by_cases h : c = '?'
    · rw [hg (.inr (.inl h)), Bool.and_false]
    · simp [h]
  have h₃ : (c == ':' && atGap cs) = false := by
    by_cases h : c = ':'
    · rw [hg (.inr (.inr h)), Bool.and_false]
    · simp [h]
  have hms : Plain.mayStart false c cs = true := by
    rw [Plain.mayStart.eq_def]
    by_cases h : c = '-'
    · have := hg (.inl h)
      cases cs with
      | nil => cases this
      | cons d cs =>
        rw [atGap, Bool.or_eq_false_iff] at this
        simp [h, this.1]
    · by_cases h' : c = '?' ∨ c = ':'
      · have := hg (.inr h')
        obtain rfl | rfl := h' <;> simp [this]
      · rw [not_or] at h'
        simp [h, h', hs, hc.isBlank, hc.isBreak]
  have hcol : (block m (c :: cs) ts is allowed k?).input.mark.column = m.column := rfl
  generalize block m (c :: cs) ts is allowed k? = s at hf hcol ⊢
  simp only [Plain.isSign, Plain.isFlowSign, Bool.or_eq_false_iff, beq_eq_false_iff_ne] at hs
  simp [token?, hcol, Nat.ne_of_gt hm, hf, h₁, h₂, h₃, hms, hs]

theorem token?_single (hm : 0 < m.column) :
    (block m ('\'' :: cs) ts is allowed k?).token? '\'' cs =
      (block m ('\'' :: cs) ts is allowed k?).quotedScalar? true := by
  simp [token?, block, Nat.ne_of_gt hm]

theorem token?_double (hm : 0 < m.column) :
    (block m ('"' :: cs) ts is allowed k?).token? '"' cs =
      (block m ('"' :: cs) ts is allowed k?).quotedScalar? false := by
  simp [token?, block, Nat.ne_of_gt hm]

theorem token?_literal (hm : 0 < m.column) :
    (block m ('|' :: cs) ts is allowed k?).token? '|' cs =
      (block m ('|' :: cs) ts is allowed k?).blockScalar? true := by
  simp [token?, block, Nat.ne_of_gt hm, inFlow]

theorem reaches_of_token {ts' : List Token} {t : Scanner} {m' : Mark} {l? : Option KeyPlace}
    (hc : Starts c) (hm : 2 ≤ m.column)
    (ht : (block m.next (c :: cs) ts (2 :: is) allowed none).token? c cs = some t)
    (hs : t.toNext = (block m' x ts' (2 :: is) true l?).toNext) (hm' : m'.column = 0)
    (hl : ∀ k ∈ l?, k.required = false) (hx : x.length ≤ cs.length) :
    Reaches (block m (' ' :: c :: cs) ts (2 :: is) allowed none) x ts' (2 :: is) := by
  have hn : (block m (' ' :: c :: cs) ts (2 :: is) allowed none).toNext =
      block m.next (c :: cs) ts (2 :: is) allowed none := by
    rw [← toNext_starts _ _ _ _ _ _ hc]
    exact toNext_spaces m (c :: cs) ts (2 :: is) allowed none 1
  have hd : (block m (' ' :: c :: cs) ts (2 :: is) allowed none).toNext.dropStale? =
      some (block m.next (c :: cs) ts (2 :: is) allowed none) := by
    rw [hn]
    rfl
  have hu := unroll_block m.next (c :: cs) ts is allowed none (i := 2)
    (by simp only [Mark.next]; omega)
  have hr : (block m' x ts' (2 :: is) true l?).input.rest.length <
      (block m (' ' :: c :: cs) ts (2 :: is) allowed none).input.rest.length := by
    simp only [block, List.length_cons]
    omega
  exact ⟨m', l?, hm', hl, Steps.token hd hu rfl ht hs hr⟩

theorem starts_of_isPrintable (hp : isPrintable c = true) (hb : isBreak c = false) (hs : c ≠ ' ')
    (hc : c ≠ '#') : Starts c where
  isBlank := by
    rw [← Bool.not_eq_true]
    exact fun h => hs (eq_space_of_isBlank hp h)
  isBreak := hb
  ne_comment := hc
  ne_mark := by
    rintro rfl
    exact absurd hp (by decide)

theorem read?_plain {s : List Char} (hs : s ≠ []) (ha : Plain.allowed s = true) {k : Nat}
    {r : List Char} (hk : k ≤ 2) (hr : startsLine r) (hm : 2 < m.column) :
    Plain.read? false (2 + 1) ⟨m, s ++ '\n' :: (spaces k ++ r)⟩ =
      some (s, true, ⟨((m.nextBy s.length).newLine).nextBy k, r⟩) := by
  simp only [Plain.allowed, Bool.and_eq_true, Bool.not_eq_true', List.all_eq_true, bne_iff_ne,
    ne_eq] at ha
  obtain ⟨⟨⟨⟨⟨hp, -⟩, hl⟩, -⟩, -⟩, hb⟩ := ha
  have h₁ := Plain.readFrom_append ('\n' :: (spaces k ++ r)) (n := 2 + 1) (w := []) (m := m) hs hp
    hl (Plain.hasBreakingSign_mono hb) (.inl (by omega)) (by omega)
  have h₂ := Plain.readFrom_break k hr (n := 2 + 1) (m.nextBy s.length) (by omega)
  rw [h₂] at h₁
  rw [Plain.read?]
  simpa using h₁

theorem starts_plain {s : List Char} (ha : Plain.allowed (c :: s) = true) (x : List Char) :
    Plain.isSign c = false ∧ Starts c ∧
      (c = '-' ∨ c = '?' ∨ c = ':' → atGap (s ++ '\n' :: x) = false) := by
  simp only [Plain.allowed, Bool.and_eq_true, Bool.not_eq_true', List.all_eq_true, bne_iff_ne,
    ne_eq] at ha
  obtain ⟨⟨⟨⟨⟨hp, hh⟩, -⟩, -⟩, hsign⟩, -⟩ := ha
  obtain ⟨hpc, hbc⟩ := hp c (by simp)
  rw [Plain.startsWithSign, Bool.or_eq_false_iff] at hsign
  have hcs : c ≠ ' ' := fun h => hh (by rw [h]; rfl)
  refine ⟨hsign.1, starts_of_isPrintable hpc hbc hcs ?_, fun hc => ?_⟩
  · rintro rfl
    exact absurd hsign.1 (by decide)
  · have hsp : Plain.beforeSpace s = false := by
      have h := hsign.2
      obtain rfl | rfl | rfl := hc <;> simpa using h
    cases s with
    | nil => cases hsp
    | cons d s =>
      obtain ⟨hpd, hbd⟩ := hp d (by simp)
      exact atGap_of_isPrintable hpd hbd (beq_eq_false_iff_ne.mp hsp) _

theorem reaches_plain {s : List Char} (hs : s ≠ []) (ha : Plain.allowed s = true) (hx : IsLine x)
    (hm : 2 ≤ m.column) :
    Reaches (block m (' ' :: (s ++ '\n' :: x)) ts (2 :: is) allowed none) x
      (.scalar true s :: ts) (2 :: is) := by
  obtain ⟨k, r, hk, hr, rfl⟩ := hx
  have hread := read?_plain (m := m.next) hs ha hk hr (Nat.lt_succ_of_le hm)
  obtain ⟨c, s, rfl⟩ := List.exists_cons_of_ne_nil hs
  obtain ⟨hsign, hc, hg⟩ := starts_plain ha (spaces k ++ r)
  have hi : (2 : Int) ≠ m.next.column := by
    simp only [Mark.next]
    omega
  obtain ⟨l?, hl?, hn⟩ :=
    noteKey?_inner m.next (c :: (s ++ '\n' :: (spaces k ++ r))) ts is allowed hi
  have ht := (token?_plain (m := m.next) _ _ _ (Nat.succ_pos m.column) hsign hc hg).trans
    (plainScalar?_block _ _ _ _ _ _ hread hn)
  have hlen : (spaces k ++ r).length ≤ (s ++ '\n' :: (spaces k ++ r)).length := by
    simp only [List.length_append, List.length_cons]
    omega
  have hs := (toNext_spaces (m.next.nextBy (c :: s).length).newLine r (.scalar true (c :: s) :: ts)
    (2 :: is) true l? k).symm
  exact reaches_of_token ts is allowed hc hm ht hs rfl hl? hlen

theorem reaches_quoted {s : List Char} {single : Bool} {m' : Mark} (hc : Starts c)
    (hm : 2 ≤ m.column)
    (ht : ∀ k?, (block m.next (c :: cs) ts (2 :: is) allowed k?).token? c cs =
      (block m.next (c :: cs) ts (2 :: is) allowed k?).quotedScalar? single)
    (hr : Quoted.read? single ⟨m.next, c :: cs⟩ = some (s, ⟨m', '\n' :: x⟩))
    (hx : x.length ≤ cs.length) :
    Reaches (block m (' ' :: c :: cs) ts (2 :: is) allowed none) x (.scalar false s :: ts)
      (2 :: is) := by
  have hi : (2 : Int) ≠ m.next.column := by
    simp only [Mark.next]
    omega
  obtain ⟨l?, hl?, hn⟩ := noteKey?_inner m.next (c :: cs) ts is allowed hi
  have hq : (block m.next (c :: cs) ts (2 :: is) allowed none).token? c cs =
      some (block m' ('\n' :: x) (.scalar false s :: ts) (2 :: is) false l?) := by
    have hin : (block m.next (c :: cs) ts (2 :: is) allowed l?).input = ⟨m.next, c :: cs⟩ := rfl
    rw [ht, quotedScalar?, hn]
    simp only [Option.bind_eq_bind, Option.bind_some, hin, hr]
    rfl
  exact reaches_of_token ts is allowed hc hm hq (toNext_break m' x _ _ false l?) rfl hl? hx

theorem reaches_single {s : List Char} (hn : '\n' ∉ s) (hs : singleAllowed s = true)
    (hm : 2 ≤ m.column) :
    Reaches (block m (' ' :: (writeSingle 4 s ++ '\n' :: x)) ts (2 :: is) allowed none) x
      (.scalar false s :: ts) (2 :: is) := by
  simp only [singleAllowed, isShown, Bool.and_eq_true, Bool.not_eq_true', List.all_eq_true] at hs
  obtain ⟨⟨hp, hsb⟩, hbs⟩ := hs
  have hq : IsSingle s := ⟨fun c hc => ⟨hp c hc, fun he => hn (he ▸ hc)⟩, hsb, hbs⟩
  obtain ⟨m', hr⟩ := readFrom_single (n := 4) (by decide) (r := '\n' :: x) (by simp) hq
    (IsGap.nil s) (m := m.next.next) fun _ => Nat.succ_pos _
  have hlen : x.length ≤ (singleFrom 4 false s ++ '\n' :: x).length := by
    simp only [List.length_append, List.length_cons]
    omega
  exact reaches_quoted ts is allowed ⟨rfl, rfl, by decide, by decide⟩ hm
    (fun _ => token?_single _ _ _ (Nat.succ_pos _)) hr hlen

theorem reaches_double (s : List Char) (hm : 2 ≤ m.column) :
    Reaches (block m (' ' :: (writeDouble s ++ '\n' :: x)) ts (2 :: is) allowed none) x
      (.scalar false s :: ts) (2 :: is) := by
  obtain ⟨m', hr⟩ := readFrom_double s ('\n' :: x) (w := []) (m := m.next.next) (Nat.succ_pos _)
  have hw : writeDouble s ++ '\n' :: x = '"' :: (s.flatMap shown ++ '"' :: '\n' :: x) := by
    rw [writeDouble_eq, List.cons_append, List.append_assoc, List.singleton_append]
  have hlen : x.length ≤ (s.flatMap shown ++ '"' :: '\n' :: x).length := by
    simp only [List.length_append, List.length_cons]
    omega
  rw [hw]
  exact reaches_quoted ts is allowed ⟨rfl, rfl, by decide, by decide⟩ hm
    (fun _ => token?_double _ _ _ (Nat.succ_pos _)) hr hlen

theorem reaches_literal {s : List Char} (hs : s ≠ []) (hp : ∀ c ∈ s, isPrintable c = true)
    (hx : IsLine x) (hm : 2 ≤ m.column) :
    Reaches (block m (' ' :: (Block.writeLiteral 4 s ++ (Block.closing s ++ x))) ts (2 :: is)
      allowed none) x (.scalar false s :: ts) (2 :: is) := by
  obtain ⟨k, r, hk, hr, rfl⟩ := hx
  obtain ⟨m', hm', hread⟩ := Block.read?_writeLiteral (p := 2) hr (k := k) (by omega) hs hp m.next
  obtain ⟨w, hw⟩ : ∃ w, Block.writeLiteral 4 s = '|' :: w := ⟨_, rfl⟩
  have ht : (block m.next (Block.writeLiteral 4 s ++ (Block.closing s ++ (spaces k ++ r))) ts (2 :: is)
      allowed none).blockScalar? true =
        some (block (m'.nextBy k) r (.scalar false s :: ts) (2 :: is) true none) := by
    have hf : ∀ cs, (block m.next cs ts (2 :: is) allowed none).forgetKey? =
        some (block m.next cs ts (2 :: is) allowed none) := fun _ => rfl
    have hin : ∀ cs, (block m.next cs ts (2 :: is) allowed none).input = ⟨m.next, cs⟩ := fun _ => rfl
    have hi : ∀ cs, (block m.next cs ts (2 :: is) allowed none).indent = (2 : Nat) := fun _ => rfl
    rw [blockScalar?, hf]
    simp only [Option.bind_eq_bind, Option.bind_some, hin, hi, hread]
    rfl
  have hlen : (spaces k ++ r).length ≤ (w ++ (Block.closing s ++ (spaces k ++ r))).length := by
    simp only [List.length_append]
    omega
  rw [hw] at ht ⊢
  have hs := (toNext_spaces m' r (.scalar false s :: ts) (2 :: is) true none k).symm
  exact reaches_of_token ts is allowed ⟨rfl, rfl, by decide, by decide⟩ hm
    ((token?_literal _ _ _ (Nat.succ_pos _)).trans ht) hs hm' (fun l hl => by cases hl) hlen

theorem endLine_writeSingle (n : Nat) (s : List Char) :
    endLine (writeSingle n s) = writeSingle n s ++ ['\n'] := by
  obtain ⟨y, hy⟩ := singleFrom_eq n false s
  rw [Block.endLine_eq, writeSingle, hy, ← List.cons_append,
    Block.closing_of_isBreak_eq_false (c := '\'') rfl]

theorem endLine_writeDouble (s : List Char) :
    endLine (writeDouble s) = writeDouble s ++ ['\n'] := by
  rw [Block.endLine_eq, writeDouble_eq, ← List.cons_append,
    Block.closing_of_isBreak_eq_false (c := '"') rfl]

theorem endLine_plain {s : List Char} (hs : s ≠ []) (ha : Plain.allowed s = true) :
    endLine s = s ++ ['\n'] := by
  obtain ⟨y, c, rfl⟩ := Block.exists_dropLast hs
  have hb : isBreak c = false := by
    simp only [Plain.allowed, Bool.and_eq_true, Bool.not_eq_true', List.all_eq_true] at ha
    exact (ha.1.1.1.1.1 c (by simp)).2
  rw [Block.endLine_eq, Block.closing_of_isBreak_eq_false hb]

theorem endLine_writeLiteral (n : Nat) {s : List Char} (hs : s ≠ []) :
    endLine (Block.writeLiteral n s) = Block.writeLiteral n s ++ Block.closing s := by
  have hn : Block.writeLines n true s ≠ [] := fun h => by
    have hl := Block.length_le_writeLines n true s
    rw [h] at hl
    exact hs (List.eq_nil_of_length_eq_zero (Nat.le_zero.mp hl))
  have hw : Block.writeLiteral n s =
      ('|' :: Block.indentSign s ++ Block.chompSign s ++ ['\n']) ++ Block.writeLines n true s := by
    simp [Block.writeLiteral]
  have hc : Block.closing (Block.writeLiteral n s) = Block.closing s := by
    rw [hw, Block.closing_append hn, Block.closing, Block.closing, Block.getLast?_writeLines]
  rw [Block.endLine_eq, hc]

/-- The scanner makes one token of a written text. -/
theorem reaches_text (s : List Char) (hx : IsLine x) (hm : 2 ≤ m.column) :
    Reaches (block m (' ' :: (endLine (writeText 4 s) ++ x)) ts (2 :: is) allowed none) x
      (scalarOf s :: ts) (2 :: is) := by
  rw [writeText, scalarOf, isPlain]
  cases hn : s.contains '\n' with
  | true =>
    have hs : s ≠ [] := by
      rintro rfl
      cases hn
    rw [if_pos rfl]
    split
    · rename_i h
      simp only [literalAllowed, isShown, Bool.and_eq_true, List.all_eq_true] at h
      rw [endLine_writeLiteral 4 hs, List.append_assoc]
      exact reaches_literal ts is allowed hs h.1.1 hx hm
    · rw [endLine_writeDouble, List.append_assoc]
      exact reaches_double ts is allowed s hm
  | false =>
    have hn' : '\n' ∉ s := fun h => by
      rw [List.contains_iff_mem.mpr h] at hn
      cases hn
    rw [if_neg Bool.false_ne_true]
    cases hp : !Implicit.looksTyped s && Plain.allowed s with
    | true =>
      have ha : Plain.allowed s = true := (Bool.and_eq_true _ _ ▸ hp).2
      have hs : s ≠ [] := by
        rintro rfl
        cases hp
      rw [if_pos rfl, endLine_plain hs ha, List.append_assoc]
      exact reaches_plain ts is allowed hs ha hx hm
    | false =>
      rw [if_neg Bool.false_ne_true]
      split
      · rename_i h
        rw [endLine_writeSingle, List.append_assoc]
        exact reaches_single ts is allowed hn' h hm
      · rw [endLine_writeDouble, List.append_assoc]
        exact reaches_double ts is allowed s hm

end

end EndpointCatalog.Yaml.Scanner
