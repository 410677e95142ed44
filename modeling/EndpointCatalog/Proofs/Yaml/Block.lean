import EndpointCatalog.Yaml.Value
import EndpointCatalog.Proofs.Yaml.Input

namespace EndpointCatalog.Yaml.Block

open Quoted Value

/-- The break that ends the line of a scalar, if the scalar does not end with one. -/
def closing (s : List Char) : List Char := if (s.getLast?).any isBreak then [] else ['\n']

theorem endLine_eq (s : List Char) : endLine s = s ++ closing s := by
  rw [endLine, closing]
  split <;> simp

theorem getLast?_append_of_ne_nil {x : List Char} (hx : x ≠ []) (l : List Char) :
    (l ++ x).getLast? = x.getLast? := by
  rw [List.getLast?_append, List.getLast?_eq_some_getLast hx, Option.some_or]

theorem closing_append {x : List Char} (hx : x ≠ []) (l : List Char) :
    closing (l ++ x) = closing x := by
  rw [closing, closing, getLast?_append_of_ne_nil hx]

theorem writeLines_breaks (n : Nat) {bs : List Char} (hb : ∀ c ∈ bs, isBreak c = true)
    (s : List Char) : writeLines n true (bs ++ s) = bs ++ writeLines n true s := by
  induction bs with
  | nil => rfl
  | cons b bs ih =>
    have h := ih fun c hc => hb c (by simp [hc])
    rw [List.cons_append, writeLines, if_pos (hb b (by simp)), h, List.cons_append]

theorem writeLines_line (n : Nat) {l : List Char} (hl : ∀ c ∈ l, isBreak c = false)
    (s : List Char) : writeLines n false (l ++ s) = l ++ writeLines n false s := by
  induction l with
  | nil => rfl
  | cons c l ih =>
    have h := ih fun d hd => hl d (by simp [hd])
    rw [List.cons_append, writeLines, hl c (by simp), h]
    rfl

theorem writeLines_of_breaks (n : Nat) {bs : List Char} (hb : ∀ c ∈ bs, isBreak c = true) :
    writeLines n true bs = bs := by
  have h := writeLines_breaks n hb []
  simpa [writeLines] using h

theorem writeLines_of_line (n : Nat) {l : List Char} (hl : ∀ c ∈ l, isBreak c = false) :
    writeLines n false l = l := by
  have h := writeLines_line n hl []
  simpa [writeLines] using h

theorem writeLines_fresh (n : Nat) {c : Char} (hc : isBreak c = false) (s : List Char) :
    writeLines n true (c :: s) = spaces n ++ writeLines n false (c :: s) := by
  simp [writeLines, hc]

theorem writeLines_break (n : Nat) (fresh : Bool) {c : Char} (hc : isBreak c = true)
    (s : List Char) : writeLines n fresh (c :: s) = c :: writeLines n true s := by
  rw [writeLines, if_pos hc]

theorem getLast?_writeLines (n : Nat) (fresh : Bool) (s : List Char) :
    (writeLines n fresh s).getLast? = s.getLast? := by
  induction s generalizing fresh with
  | nil => rfl
  | cons c s ih =>
    have h : ∀ b, (c :: writeLines n b s).getLast? = (c :: s).getLast? := fun b => by
      rw [List.getLast?_cons, List.getLast?_cons, ih]
    rw [writeLines]
    split
    · exact h true
    · rw [getLast?_append_of_ne_nil (by simp)]
      exact h false

theorem breaks_spaces {n j : Nat} (most : Nat) {m : Mark} (hj : n = 0 ∨ m.column + j ≤ n)
    (r : List Char) : breaks n most m (spaces j ++ r) = breaks n most (m.nextBy j) r := by
  induction j generalizing m with
  | zero => rfl
  | succ j ih =>
    have h := ih (m := m.next) (by simp only [Mark.next]; omega)
    have hc : n = 0 ∨ m.column < n := by omega
    rw [spaces_succ, List.cons_append, breaks]
    rw [Mark.next_nextBy] at h
    simp [hc, h]

theorem breaks_stop {n : Nat} (most : Nat) {m : Mark} {c : Char} (hb : isBreak c = false)
    (hc : n ≠ 0 ∧ n ≤ m.column ∨ isBlank c = false) (r : List Char) :
    breaks n most m (c :: r) = some ([], max most m.column, ⟨m, c :: r⟩) := by
  have hs : ((n = 0 || m.column < n) && c == ' ') = false := by
    obtain ⟨hn, hm⟩ | hk := hc
    · simp [hn, Nat.not_lt.mpr hm]
    · simp only [isBlank, Bool.or_eq_false_iff] at hk
      rw [hk.1, Bool.and_false]
  have ht : ((n = 0 || m.column < n) && c == '\t') = false := by
    obtain ⟨hn, hm⟩ | hk := hc
    · simp [hn, Nat.not_lt.mpr hm]
    · simp only [isBlank, Bool.or_eq_false_iff] at hk
      rw [hk.2, Bool.and_false]
  rw [breaks, hs, ht, atReturn_of_isBreak_eq_false hb, hb]
  rfl

theorem breaks_append (n : Nat) {bs : List Char}
    (hb : ∀ c ∈ bs, isBreak c = true ∧ isPrintable c = true) (most : Nat) (m : Mark) :
    ∃ most' m', (m.column = 0 → m'.column = 0) ∧ ∀ x,
      breaks n most m (bs ++ x) =
        (breaks n most' m' x).map fun (b, r) => (bs ++ b, r) := by
  induction bs generalizing most m with
  | nil => exact ⟨most, m, id, fun x => by simp⟩
  | cons b bs ih =>
    obtain ⟨most', m', hm', h⟩ := ih (fun c hc => hb c (by simp [hc])) (max most m.column) m.newLine
    obtain ⟨hbb, hbp⟩ := hb b (by simp)
    refine ⟨most', m', fun _ => hm' rfl, fun x => ?_⟩
    have hk := isBlank_of_isBreak hbb
    simp only [isBlank, Bool.or_eq_false_iff] at hk
    rw [List.cons_append, breaks, hk.1, hk.2, Bool.and_false, atReturn_of_isPrintable hbp, hbb, h,
      breakOf_of_isPrintable hbp hbb]
    simp [Option.map_map, Function.comp_def]

theorem breaks_margin {n k : Nat} {r : List Char} (hr : startsLine r) (hk : k < n) (most : Nat)
    {m : Mark} (hm : m.column = 0) :
    ∃ most', breaks n most m (spaces k ++ r) = some ([], most', ⟨m.nextBy k, r⟩) := by
  rw [breaks_spaces most (.inr (by omega))]
  cases r with
  | nil => exact ⟨_, rfl⟩
  | cons c r =>
    obtain ⟨hs, hb⟩ := isBlank_isBreak_of_startsLine hr
    exact ⟨_, breaks_stop most hb (.inr hs) r⟩

theorem breaks_breaks {n k : Nat} {r : List Char} (hr : startsLine r) (hk : k < n)
    {bs : List Char} (hb : ∀ c ∈ bs, isBreak c = true ∧ isPrintable c = true) (most : Nat)
    {m : Mark} (hm : m.column = 0) :
    ∃ (most' : Nat) (m' : Mark), m'.column = 0 ∧
      breaks n most m (bs ++ (spaces k ++ r)) = some (bs, most', ⟨m'.nextBy k, r⟩) := by
  obtain ⟨most₁, m₁, hm₁, h₁⟩ := breaks_append n hb most m
  obtain ⟨most₂, h₂⟩ := breaks_margin hr hk most₁ (hm₁ hm)
  refine ⟨most₂, m₁, hm₁ hm, ?_⟩
  rw [h₁, h₂]
  simp

theorem breaks_writeLines {n : Nat} (hn : 0 < n) {bs : List Char}
    (hb : ∀ c ∈ bs, isBreak c = true ∧ isPrintable c = true) {c : Char} (hc : isBreak c = false)
    (s x : List Char) (most : Nat) {m : Mark} (hm : m.column = 0) :
    ∃ most' m', m'.column = n ∧
      breaks n most m (writeLines n true (bs ++ c :: s) ++ x) =
        some (bs, most', ⟨m', writeLines n false (c :: s) ++ x⟩) := by
  obtain ⟨most₁, m₁, hm₁, h₁⟩ := breaks_append n hb most m
  have hm' : (m₁.nextBy n).column = n := by simp [Mark.nextBy, hm₁ hm]
  have hw : writeLines n false (c :: s) ++ x = c :: (writeLines n false s ++ x) := by
    simp [writeLines, hc]
  have h := breaks_stop most₁ hc (.inl ⟨Nat.ne_of_gt hn, Nat.le_of_eq hm'.symm⟩)
    (writeLines n false s ++ x)
  refine ⟨max most₁ (m₁.nextBy n).column, m₁.nextBy n, hm', ?_⟩
  rw [writeLines_breaks n (fun d hd => (hb d hd).1), writeLines_fresh n hc, List.append_assoc,
    List.append_assoc, h₁, breaks_spaces most₁ (.inr (by rw [hm₁ hm]; omega)), hw, h]
  simp

theorem lines_stop {k : Chomp} {n : Nat} {i : Input} (hi : i.mark.column ≠ n) (f : Nat)
    (lead trail : List Char) (blank : Bool) :
    lines true k n f lead trail blank i = some (ending k lead trail, i) := by
  cases f with
  | zero => rfl
  | succ f => simp [lines, hi]

theorem lines_line {l : List Char} (hl : ∀ c ∈ l, isBreak c = false) {b : Char}
    (hb : isBreak b = true) (hp : isPrintable b = true) {m : Mark} {n : Nat} (hm : m.column = n)
    (k : Chomp) (f : Nat) (lead trail : List Char) (blank : Bool) (x : List Char) :
    ∃ m' blank', m'.column = 0 ∧
      lines true k n (f + 1) lead trail blank ⟨m, l ++ b :: x⟩ =
        (breaks n 0 m' x).bind fun (bs, _, i) =>
          (lines true k n f [b] bs blank' i).map fun (s, i) => (lead ++ trail ++ l ++ s, i) := by
  have ht : (l ++ b :: x).takeWhile (!isBreak ·) = l := by
    rw [List.takeWhile_append_of_pos (by simpa using hl)]
    simp [hb]
  have hd : (l ++ b :: x).dropWhile (!isBreak ·) = b :: x := by
    rw [List.dropWhile_append_of_pos (by simpa using hl)]
    simp [hb]
  have he : ((l ++ b :: x).isEmpty) = false := by simp
  have hr : atReturn b x = false := atReturn_of_isPrintable hp x
  have hs : (⟨m.nextBy l.length, b :: x⟩ : Input).skipBreak = ⟨(m.nextBy l.length).newLine, x⟩ := by
    rw [Input.skipBreak]
    split
    · rename_i h
      simp only [List.cons.injEq] at h
      rw [h.1] at hp
      exact absurd hp (by decide)
    · rename_i h
      simp only [List.cons.injEq] at h
      obtain ⟨rfl, rfl⟩ := h
      rw [if_pos hb]
    · rename_i h
      cases h
  refine ⟨(m.nextBy l.length).newLine, startsBlank (l ++ b :: x), rfl, ?_⟩
  simp only [lines, hm, he, Input.skipWhile, ht, hd, lineEnd, hr, hs, breakOf_of_isPrintable hp hb,
    between]
  cases breaks n 0 (m.nextBy l.length).newLine x with
  | none => rfl
  | some p => rfl

/-- Whether the sign for the breaks at the end is right for a text. -/
structure Fits (k : Chomp) (s : List Char) : Prop where
  shut : ∀ x c, s = x ++ [c] → isBreak c = false → k = .strip
  ended : ∀ x c b bs, s = x ++ c :: b :: bs → isBreak c = false →
    (∀ d ∈ b :: bs, isBreak d = true) → ending k [b] bs = b :: bs

theorem Fits.of_append {k : Chomp} {x s : List Char} (h : Fits k (x ++ s)) : Fits k s where
  shut y c hs := h.shut (x ++ y) c (by rw [hs, List.append_assoc])
  ended y c b bs hs := h.ended (x ++ y) c b bs (by rw [hs, List.append_assoc])

theorem closing_of_isBreak_eq_false {x : List Char} {c : Char} (hc : isBreak c = false) :
    closing (x ++ [c]) = ['\n'] := by
  rw [closing, List.getLast?_append, List.getLast?_singleton]
  simp [hc]

theorem exists_dropLast {s : List Char} (hs : s ≠ []) : ∃ x c, s = x ++ [c] :=
  ⟨s.dropLast, s.getLast hs, (List.dropLast_concat_getLast hs).symm⟩

theorem closing_of_breaks {bs : List Char} (hs : bs ≠ []) (hb : ∀ c ∈ bs, isBreak c = true)
    (x : List Char) : closing (x ++ bs) = [] := by
  obtain ⟨y, c, rfl⟩ := exists_dropLast hs
  have hc : isBreak c = true := hb c (by simp)
  rw [closing, ← List.append_assoc, List.getLast?_append, List.getLast?_singleton]
  simp [hc]

theorem exists_span (p : Char → Bool) (s : List Char) :
    ∃ l t, s = l ++ t ∧ (∀ c ∈ l, p c = true) ∧ ∀ c ∈ t.head?, p c = false := by
  refine ⟨s.takeWhile p, s.dropWhile p, List.takeWhile_append_dropWhile.symm,
    List.all_eq_true.mp List.all_takeWhile, fun c hc => ?_⟩
  have h := List.head?_dropWhile_not p s
  rw [Option.mem_def.mp hc] at h
  simpa using h

theorem lines_lastLine {n k : Nat} {r : List Char} (hr : startsLine r) (hk : k < n) {ch : Chomp}
    {l : List Char} (hl : ∀ c ∈ l, isBreak c = false) (hne : l ≠ []) (hc : Fits ch l) (f : Nat)
    (lead trail : List Char) (blank : Bool) {m : Mark} (hm : m.column = n) :
    ∃ m' : Mark, m'.column = 0 ∧
      lines true ch n (f + 1) lead trail blank
          ⟨m, writeLines n false l ++ (closing l ++ (spaces k ++ r))⟩ =
        some (lead ++ trail ++ l, ⟨m'.nextBy k, r⟩) := by
  obtain ⟨x, c, hx⟩ := exists_dropLast hne
  have hcb : isBreak c = false := hl c (by simp [hx])
  have hch : ch = .strip := hc.shut x c hx hcb
  have hcl : closing l = ['\n'] := by rw [hx, closing_of_isBreak_eq_false hcb]
  obtain ⟨m₁, blank₁, hm₁, h₁⟩ :=
    lines_line hl (b := '\n') rfl (by decide) hm ch f lead trail blank (spaces k ++ r)
  obtain ⟨most₂, h₂⟩ := breaks_margin hr hk 0 hm₁
  have hm₂ : (m₁.nextBy k).column = k := by simp [Mark.nextBy, hm₁]
  have h₃ := lines_stop (k := ch) (n := n) (i := ⟨m₁.nextBy k, r⟩)
    (by rw [hm₂]; omega) f ['\n'] [] blank₁
  have he : ending ch ['\n'] [] = [] := by rw [hch, ending]
  refine ⟨m₁, hm₁, ?_⟩
  rw [hcl, writeLines_of_line n hl, List.singleton_append, h₁, h₂]
  simp [h₃, he]

theorem lines_lastBreaks {n k : Nat} {r : List Char} (hr : startsLine r) (hk : k < n) {ch : Chomp}
    {l bs : List Char} {b : Char} (hl : ∀ c ∈ l, isBreak c = false) (hne : l ≠ [])
    (hb : ∀ c ∈ b :: bs, isBreak c = true ∧ isPrintable c = true) (hc : Fits ch (l ++ b :: bs))
    (f : Nat) (lead trail : List Char) (blank : Bool) {m : Mark} (hm : m.column = n) :
    ∃ m' : Mark, m'.column = 0 ∧
      lines true ch n (f + 1) lead trail blank
          ⟨m, writeLines n false (l ++ b :: bs) ++ (closing (l ++ b :: bs) ++ (spaces k ++ r))⟩ =
        some (lead ++ trail ++ (l ++ b :: bs), ⟨m'.nextBy k, r⟩) := by
  have hbb : ∀ c ∈ b :: bs, isBreak c = true := fun c h => (hb c h).1
  obtain ⟨⟨hb₁, hb₂⟩, hbs⟩ := List.forall_mem_cons.mp hb
  obtain ⟨x, c, hx⟩ := exists_dropLast hne
  have he : ending ch [b] bs = b :: bs := hc.ended x c b bs (by simp [hx]) (hl c (by simp [hx])) hbb
  have hcl : closing (l ++ b :: bs) = [] := closing_of_breaks (List.cons_ne_nil b bs) hbb l
  have hw : writeLines n false (l ++ b :: bs) = l ++ b :: bs := by
    rw [writeLines_line n hl, writeLines_break n false hb₁,
      writeLines_of_breaks n fun c h => (hbs c h).1]
  obtain ⟨m₁, blank₁, hm₁, h₁⟩ :=
    lines_line hl hb₁ hb₂ hm ch f lead trail blank (bs ++ (spaces k ++ r))
  obtain ⟨most₂, m₂, hm₂, h₂⟩ := breaks_breaks hr hk hbs 0 hm₁
  have h₃ := lines_stop (k := ch) (n := n) (i := ⟨m₂.nextBy k, r⟩)
    (by simp only [Mark.nextBy, hm₂]; omega) f [b] bs blank₁
  refine ⟨m₂, hm₂, ?_⟩
  rw [hw, hcl, List.nil_append, List.append_assoc, List.cons_append, h₁, h₂]
  simp [h₃, he]

/-- Lines are read one by one, each with the breaks behind it. -/
theorem lines_writeLines {n k : Nat} {r : List Char} (hr : startsLine r) (hk : k < n)
    {ch : Chomp} (f : Nat) {s : List Char} (hf : s.length < f) (hs : s ≠ [])
    (hh : ∀ c ∈ s.head?, isBreak c = false) (hp : ∀ c ∈ s, isPrintable c = true)
    (hc : Fits ch s) (lead trail : List Char) (blank : Bool) {m : Mark} (hm : m.column = n) :
    ∃ m' : Mark, m'.column = 0 ∧
      lines true ch n f lead trail blank
          ⟨m, writeLines n false s ++ (closing s ++ (spaces k ++ r))⟩ =
        some (lead ++ trail ++ s, ⟨m'.nextBy k, r⟩) := by
  -- a step takes one line with the breaks behind it, so the bound is on the lines left
  induction f generalizing s lead trail blank m with
  | zero => omega
  | succ f ih =>
    obtain ⟨l, t, rfl, hl, ht⟩ := exists_span (!isBreak ·) s
    have hl' : ∀ c ∈ l, isBreak c = false := fun c h => by simpa using hl c h
    have hne : l ≠ [] := by
      rintro rfl
      cases t with
      | nil => exact hs rfl
      | cons c t =>
        have h₁ := hh c rfl
        have h₂ := ht c rfl
        rw [h₁] at h₂
        cases h₂
    cases t with
    | nil =>
      rw [List.append_nil] at hc ⊢
      exact lines_lastLine hr hk hl' hne hc f lead trail blank hm
    | cons b t =>
      have hb : isBreak b = true := by simpa using ht b rfl
      obtain ⟨bs, u, rfl, hbs, hu⟩ := exists_span isBreak t
      have hbk : ∀ d ∈ b :: bs, isBreak d = true := List.forall_mem_cons.mpr ⟨hb, hbs⟩
      have hbb : ∀ d ∈ b :: bs, isBreak d = true ∧ isPrintable d = true := fun d hd =>
        ⟨hbk d hd, hp d (List.mem_append_right l (List.mem_append_left u hd))⟩
      cases u with
      | nil =>
        rw [List.append_nil] at hc ⊢
        exact lines_lastBreaks hr hk hl' hne hbb hc f lead trail blank hm
      | cons d u =>
        obtain ⟨⟨-, hbp⟩, hbs'⟩ := List.forall_mem_cons.mp hbb
        have he : l ++ b :: (bs ++ d :: u) = (l ++ b :: bs) ++ d :: u := by simp
        have hdb : isBreak d = false := hu d rfl
        have hcl : closing (l ++ b :: (bs ++ d :: u)) = closing (d :: u) := by
          rw [he, closing_append (List.cons_ne_nil d u)]
        have hfu : (d :: u).length < f := by
          simp only [List.length_append, List.length_cons] at hf ⊢
          omega
        have hpu : ∀ c ∈ d :: u, isPrintable c = true := by
          intro c h
          rw [he] at hp
          exact hp c (List.mem_append_right _ h)
        rw [he] at hc
        obtain ⟨m₁, blank₁, hm₁, h₁⟩ := lines_line hl' hb hbp hm ch f lead trail blank
          (writeLines n true (bs ++ d :: u) ++ (closing (d :: u) ++ (spaces k ++ r)))
        obtain ⟨most₂, m₂, hm₂, h₂⟩ := breaks_writeLines (by omega : 0 < n) hbs' hdb u
          (closing (d :: u) ++ (spaces k ++ r)) 0 hm₁
        obtain ⟨m', hm', h₃⟩ :=
          ih hfu (List.cons_ne_nil d u) hu hpu hc.of_append [b] bs blank₁ hm₂
        refine ⟨m', hm', ?_⟩
        rw [hcl, writeLines_line n hl', writeLines_break n false hb, List.append_assoc,
          List.cons_append, h₁, h₂]
        simp [h₃]

def chompFor (s : List Char) : Chomp :=
  match s.reverse with
  | [] => .strip
  | [c] => if isBreak c then .keep else .strip
  | c :: d :: _ => if !isBreak c then .strip else if isBreak d then .keep else .clip

theorem chompSign_cases (s : List Char) :
    (chompSign s = ['-'] ∧ chompFor s = .strip) ∨ (chompSign s = ['+'] ∧ chompFor s = .keep) ∨
      (chompSign s = [] ∧ chompFor s = .clip) := by
  rw [chompSign.eq_def, chompFor.eq_def]
  cases s.reverse with
  | nil => exact .inl ⟨rfl, rfl⟩
  | cons c t =>
    cases t with
    | nil => cases hc : isBreak c <;> simp [hc]
    | cons d t => cases hc : isBreak c <;> cases hd : isBreak d <;> simp [hc, hd]

theorem indentSign_cases (s : List Char) : indentSign s = [] ∨ indentSign s = ['2'] := by
  cases s with
  | nil => exact .inl rfl
  | cons c s =>
    rw [indentSign]
    split
    · exact .inr rfl
    · exact .inl rfl

/-- The columns that the sign for the indentation adds; none if there is no sign. -/
def incrementFor (s : List Char) : Nat := if indentSign s = [] then 0 else 2

theorem header_signs (s x : List Char) :
    let signs := indentSign s ++ chompSign s
    header (signs ++ '\n' :: x) = (⟨chompFor s, incrementFor s⟩, signs.length) ∧
      hasZero (signs ++ '\n' :: x) = false := by
  rw [incrementFor]
  obtain hi | hi := indentSign_cases s <;>
    obtain ⟨hc, hk⟩ | ⟨hc, hk⟩ | ⟨hc, hk⟩ := chompSign_cases s <;>
    simp only [hi, hc, hk] <;> exact ⟨rfl, rfl⟩

theorem fits_chompFor (s : List Char) : Fits (chompFor s) s where
  shut x c hs hc := by
    rw [chompFor, hs, List.reverse_append, List.reverse_singleton, List.singleton_append]
    cases x.reverse with
    | nil => simp [hc]
    | cons d y => simp [hc]
  ended x c b bs hs hc hb := by
    cases h : bs.reverse with
    | nil =>
      rw [List.reverse_eq_nil_iff] at h
      subst h
      rw [chompFor, hs]
      simp [hb b (by simp), hc, ending]
    | cons d ds =>
      have hbs : bs = ds.reverse ++ [d] := by rw [← List.reverse_reverse bs, h, List.reverse_cons]
      have hd : isBreak d = true := hb d (by simp [hbs])
      have hk : chompFor s = .keep := by
        rw [chompFor, hs]
        simp only [List.reverse_append, List.reverse_cons, h]
        cases ds with
        | nil => simp [hd, hb b (by simp)]
        | cons e ds => simp [hd, hb e (by simp [hbs])]
      rw [hk, ending, List.singleton_append]

theorem ending_chompFor {s : List Char} (hs : s ≠ []) (hb : ∀ c ∈ s, isBreak c = true) :
    ending (chompFor s) [] s = s := by
  have hk : chompFor s = .keep := by
    rw [chompFor]
    split
    · rename_i h
      exact absurd (List.reverse_eq_nil_iff.mp h) hs
    · rename_i c h
      rw [if_pos (hb c (by rw [← List.mem_reverse, h]; simp))]
    · rename_i c d l h
      have hc : isBreak c = true := hb c (by rw [← List.mem_reverse, h]; simp)
      have hd : isBreak d = true := hb d (by rw [← List.mem_reverse, h]; simp)
      simp [hc, hd]
  rw [hk, ending, List.nil_append]

theorem afterHeader?_break (m : Mark) (x : List Char) :
    afterHeader? ⟨m, '\n' :: x⟩ = some ⟨m.newLine, x⟩ := rfl

theorem length_le_writeLines (n : Nat) (fresh : Bool) (s : List Char) :
    s.length ≤ (writeLines n fresh s).length := by
  induction s generalizing fresh with
  | nil => exact Nat.zero_le _
  | cons c s ih =>
    have h := ih true
    have h' := ih false
    rw [writeLines]
    split
    · simp only [List.length_cons]
      omega
    · simp only [List.length_append, List.length_cons]
      omega

/-- Reads a scalar from behind its header, once its breaks and its first line are known. -/
theorem read?_signs (p : Nat) (s x : List Char) (m : Mark) :
    ∃ m' : Mark, m'.column = 0 ∧
      read? true p ⟨m, '|' :: (indentSign s ++ chompSign s) ++ '\n' :: x⟩ =
        let known := if incrementFor s = 0 then 0 else p + 2
        (breaks known 0 m' x).bind fun (trail, most, i) =>
          let indent := if known = 0 then max (max most (p + 1)) 1 else known
          lines true (chompFor s) indent (i.rest.length + 1) [] trail false i := by
  obtain ⟨hh, hz⟩ := header_signs s x
  refine ⟨(((m.nextBy 1).nextBy (indentSign s ++ chompSign s).length)).newLine, rfl, ?_⟩
  have hk : (if incrementFor s = 0 then 0 else (max (p : Int) 0).toNat + incrementFor s) =
      if incrementFor s = 0 then 0 else p + 2 := by
    rw [incrementFor]
    split <;> simp
  have hp : ((p : Int) + 1).toNat = p + 1 := rfl
  rw [read?]
  simp only [Input.skip, List.cons_append, List.drop_succ_cons, List.drop_zero, hh, hz, hk, hp]
  rw [List.drop_left, afterHeader?_break]
  rfl

theorem incrementFor_of_sign {s : List Char} (h : ∃ c ∈ s.head?, c = ' ' ∨ isBreak c = true) :
    incrementFor s = 2 := by
  obtain ⟨c, hc, h⟩ := h
  cases s with
  | nil => cases hc
  | cons d s =>
    obtain rfl := Option.some.inj hc
    simp [incrementFor, indentSign, h]

theorem incrementFor_of_not_sign {c : Char} (hs : c ≠ ' ') (hb : isBreak c = false)
    (s : List Char) : incrementFor (c :: s) = 0 := by
  simp [incrementFor, indentSign, hs, hb]

theorem lt_length_writeLines (n : Nat) (s x : List Char) :
    s.length < (writeLines n false s ++ x).length + 1 := by
  have h := length_le_writeLines n false s
  rw [List.length_append]
  omega

theorem read?_breaks {p k : Nat} {r : List Char} (hr : startsLine r) (hk : k < p + 2)
    {bs : List Char} (hs : bs ≠ []) (hb : ∀ c ∈ bs, isBreak c = true ∧ isPrintable c = true)
    {m : Mark} (hm : m.column = 0) :
    ∃ m' : Mark, m'.column = 0 ∧
      ((breaks (p + 2) 0 m (writeLines (p + 2) true bs ++ (closing bs ++ (spaces k ++ r)))).bind
        fun (trail, _, i) =>
          lines true (chompFor bs) (p + 2) (i.rest.length + 1) [] trail false i) =
        some (bs, ⟨m'.nextBy k, r⟩) := by
  have hbb : ∀ c ∈ bs, isBreak c = true := fun c h => (hb c h).1
  have hcl : closing bs = [] := closing_of_breaks hs hbb []
  obtain ⟨most, m', hm', h⟩ := breaks_breaks hr hk hb 0 hm
  have hl := lines_stop (k := chompFor bs) (n := p + 2) (i := ⟨m'.nextBy k, r⟩)
    (by simp only [Mark.nextBy, hm']; omega) (r.length + 1) [] bs false
  refine ⟨m', hm', ?_⟩
  rw [hcl, writeLines_of_breaks _ hbb, List.nil_append]
  simp [h, hl, ending_chompFor hs hbb]

theorem breaks_firstLine (n : Nat) {c : Char} (hb : isBreak c = false) (hk : isBlank c = false)
    (s x : List Char) {m : Mark} (hm : m.column = 0) :
    breaks 0 0 m (writeLines n true (c :: s) ++ x) =
      some ([], n, ⟨m.nextBy n, writeLines n false (c :: s) ++ x⟩) := by
  have hw : writeLines n false (c :: s) ++ x = c :: (writeLines n false s ++ x) := by
    simp [writeLines, hb]
  have hc : (m.nextBy n).column = n := by simp [Mark.nextBy, hm]
  rw [writeLines_fresh _ hb, List.append_assoc, breaks_spaces 0 (.inl rfl), hw,
    breaks_stop 0 hb (.inr hk), hc, Nat.zero_max]

theorem read?_writeLiteral {p k : Nat} {r : List Char} (hr : startsLine r) (hk : k < p + 2)
    {s : List Char} (hs : s ≠ []) (hp : ∀ c ∈ s, isPrintable c = true) (m : Mark) :
    ∃ m' : Mark, m'.column = 0 ∧
      read? true p ⟨m, writeLiteral (p + 2) s ++ (closing s ++ (spaces k ++ r))⟩ =
        some (s, ⟨m'.nextBy k, r⟩) := by
  obtain ⟨m₁, hm₁, h₁⟩ :=
    read?_signs p s (writeLines (p + 2) true s ++ (closing s ++ (spaces k ++ r))) m
  have hw : writeLiteral (p + 2) s ++ (closing s ++ (spaces k ++ r)) =
      '|' :: (indentSign s ++ chompSign s) ++
        '\n' :: (writeLines (p + 2) true s ++ (closing s ++ (spaces k ++ r))) := by
    simp [writeLiteral]
  rw [hw, h₁]
  obtain ⟨bs, t, rfl, hbs, ht⟩ := exists_span isBreak s
  have hbs' : ∀ d ∈ bs, isBreak d = true ∧ isPrintable d = true :=
    fun d hd => ⟨hbs d hd, hp d (by simp [hd])⟩
  have hsign : ∀ b u, bs = b :: u → incrementFor (bs ++ t) = 2 := by
    rintro b u rfl
    exact incrementFor_of_sign ⟨b, rfl, .inr (hbs b (by simp))⟩
  cases t with
  | nil =>
    rw [List.append_nil] at hs hsign ⊢
    obtain ⟨b, u, hu⟩ := List.exists_cons_of_ne_nil hs
    simp only [hsign b u hu, Nat.succ_ne_zero, if_false]
    exact read?_breaks hr hk hs hbs' hm₁
  | cons c t =>
    have hc : isBreak c = false := ht c rfl
    have hcl : closing (bs ++ c :: t) = closing (c :: t) := closing_append (List.cons_ne_nil c t) bs
    have hf := (fits_chompFor (bs ++ c :: t)).of_append
    have hl := fun (m₂ : Mark) (hm₂ : m₂.column = p + 2) =>
      lines_writeLines hr hk _ (lt_length_writeLines (p + 2) (c :: t) (closing (c :: t) ++
        (spaces k ++ r))) (List.cons_ne_nil c t) ht (fun d hd => hp d (by simp [hd])) hf [] bs false
        (m := m₂) hm₂
    -- without a sign the first line has to show the indentation by itself
    by_cases hplain : bs = [] ∧ c ≠ ' '
    · obtain ⟨rfl, hcs⟩ := hplain
      have hi : incrementFor (c :: t) = 0 := incrementFor_of_not_sign hcs hc t
      have hblank : isBlank c = false := by
        rw [← Bool.not_eq_true]
        exact fun h => hcs (eq_space_of_isBlank (hp c (by simp)) h)
      have h₂ := breaks_firstLine (p + 2) hc hblank t (closing (c :: t) ++ (spaces k ++ r)) hm₁
      have hmost : max (max (p + 2) (p + 1)) 1 = p + 2 := by omega
      obtain ⟨m', hm', h₃⟩ := hl (m₁.nextBy (p + 2)) (by simp [Mark.nextBy, hm₁])
      refine ⟨m', hm', ?_⟩
      rw [List.nil_append] at h₃ ⊢
      simp only [hi, if_true, h₂, Option.bind_some, hmost]
      exact h₃
    · have hi : incrementFor (bs ++ c :: t) = 2 := by
        cases bs with
        | nil =>
          have hcs : c = ' ' := Classical.byContradiction fun h => hplain ⟨rfl, h⟩
          exact incrementFor_of_sign ⟨c, rfl, .inl hcs⟩
        | cons b bs => exact hsign b bs rfl
      obtain ⟨most, m₂, hm₂, h₂⟩ := breaks_writeLines (by omega : 0 < p + 2) hbs' hc t
        (closing (c :: t) ++ (spaces k ++ r)) 0 hm₁
      obtain ⟨m', hm', h₃⟩ := hl m₂ hm₂
      refine ⟨m', hm', ?_⟩
      rw [hi, hcl]
      simp only [Nat.succ_ne_zero, if_false, h₂, Option.bind_some]
      exact h₃

end EndpointCatalog.Yaml.Block
