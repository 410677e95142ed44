import EndpointCatalog.Proofs.Yaml.Allowed
import EndpointCatalog.Proofs.Yaml.Scalar

namespace EndpointCatalog.Yaml

open Quoted Value Scanner

inductive Cell where
  | text (s : String)
  | texts (ss : List String)
deriving DecidableEq, Repr

/-- Whether a text is one word, short enough to be the name of a field. -/
structure IsKey (k : List Char) : Prop where
  ne_nil : k ≠ []
  isAlpha : ∀ c ∈ k, c.isAlpha = true
  length_le : k.length ≤ 1024

instance (k : List Char) : Decidable (IsKey k) :=
  decidable_of_iff (k ≠ [] ∧ k.all (·.isAlpha) = true ∧ k.length ≤ 1024)
    ⟨fun ⟨h₁, h₂, h₃⟩ => ⟨h₁, List.all_eq_true.mp h₂, h₃⟩,
      fun ⟨h₁, h₂, h₃⟩ => ⟨h₁, List.all_eq_true.mpr h₂, h₃⟩⟩

namespace Cell

def toValue : Cell → Value
  | text s => .text s
  | texts ss => Value.texts ss

def itemTokens (ss : List String) : List Token :=
  ss.flatMap fun s => [.blockEntry, scalarOf s.toList]

def tokens : Cell → List Token
  | text s => [scalarOf s.toList]
  | texts [] => [.flowSequence, .flowSequenceEnd]
  | texts (s :: ss) => itemTokens (s :: ss)

end Cell

abbrev Record := List (String × Cell)

structure IsRecord (r : Record) : Prop where
  ne_nil : r ≠ []
  isKey : ∀ e ∈ r, IsKey e.1.toList

namespace Record

def toValue (r : Record) : Value := .fields (r.map fun e => (e.1, e.2.toValue))

def entryTokens (e : String × Cell) : List Token :=
  .key :: .scalar true e.1.toList :: .value :: e.2.tokens

def tokens (r : Record) : List Token :=
  .blockEntry :: .blockMapping :: r.flatMap entryTokens ++ [.blockEnd]

def tableTokens (rs : List Record) : List Token :=
  .blockSequence :: rs.flatMap tokens ++ [.blockEnd]

end Record

namespace Scanner

section

variable {m : Mark} {x r : List Char} {k? : Option KeyPlace} (ts : List Token) (is : List Int)

theorem isPrintable_of_isAlpha {c : Char} (hc : c.isAlpha = true) : isPrintable c = true := by
  have h : 65 ≤ c.toNat ∧ c.toNat ≤ 122 := by
    have ha : (decide (c.val ≥ 'A'.val ∧ c.val ≤ 'Z'.val) ||
      (decide (c.val ≥ 'a'.val) && decide (c.val ≤ 'z'.val))) = true := hc
    simp only [Bool.or_eq_true, Bool.and_eq_true, decide_eq_true_eq, UInt32.le_iff_toNat_le,
      ge_iff_le] at ha
    have he : c.toNat = c.val.toNat := rfl
    rw [he]
    obtain ⟨h₁, h₂⟩ | ⟨h₁, h₂⟩ := ha
    · exact ⟨h₁, Nat.le_trans h₂ (by decide)⟩
    · exact ⟨Nat.le_trans (by decide) h₁, h₂⟩
  have h₁ : 0x20 ≤ c.toNat := by omega
  have h₂ : c.toNat ≤ 0x7E := by omega
  simp [isPrintable, h₁, h₂]

theorem beq_of_isAlpha {c d : Char} (hc : c.isAlpha = true) (hd : d.isAlpha = false) :
    (c == d) = false := by
  rw [beq_eq_false_iff_ne]
  rintro rfl
  rw [hc] at hd
  cases hd

theorem isBreak_of_isAlpha {c : Char} (hc : c.isAlpha = true) : isBreak c = false := by
  simp [isBreak, beq_of_isAlpha hc]

theorem isSign_of_isAlpha {c : Char} (hc : c.isAlpha = true) : Plain.isSign c = false := by
  simp [Plain.isSign, Plain.isFlowSign, beq_of_isAlpha hc]

theorem hasBreakingSign_of_isAlpha {k : List Char} (hk : ∀ c ∈ k, c.isAlpha = true) (b : Bool) :
    Plain.hasBreakingSign b k = false := by
  induction k generalizing b with
  | nil => rfl
  | cons c k ih =>
    have hc := hk c (by simp)
    have h := ih (fun d hd => hk d (by simp [hd])) (c == ' ')
    rw [Plain.hasBreakingSign, h]
    simp [beq_of_isAlpha hc]

theorem read?_key {k : List Char} (hk : IsKey k) (hr : atGap r = true) (i : Int)
    (hm : 0 < m.column) :
    Plain.read? false i ⟨m, k ++ ':' :: r⟩ = some (k, false, ⟨m.nextBy k.length, ':' :: r⟩) := by
  have hp : ∀ c ∈ k, isPrintable c = true ∧ isBreak c = false := fun c hc =>
    ⟨isPrintable_of_isAlpha (hk.isAlpha c hc), isBreak_of_isAlpha (hk.isAlpha c hc)⟩
  have hs : ' ' ∉ k := fun h => absurd (hk.isAlpha _ h) (by decide)
  have hl : k.getLast? ≠ some ' ' := fun h => hs (List.mem_of_getLast? h)
  have h := Plain.readFrom_append (':' :: r) (n := i) (w := []) (m := m) hk.ne_nil hp hl
    (hasBreakingSign_of_isAlpha hk.isAlpha _) (.inr ⟨rfl, hs⟩) hm
  rw [Plain.readFrom_colon hr] at h
  rw [Plain.read?]
  simpa using h

theorem starts_of_isAlpha {c : Char} (hc : c.isAlpha = true) : Starts c := by
  have h : startsLine [c] := fun d hd => by
    obtain rfl := Option.some.inj hd
    exact .inl hc
  exact Starts.of_startsLine h

theorem token?_alpha {c : Char} (hc : c.isAlpha = true) (i : Int) (hm : 0 < m.column) :
    (block m (c :: x) ts (i :: is) true k?).token? c x =
      (block m (c :: x) ts (i :: is) true k?).plainScalar? := by
  have hne : c ≠ '-' ∧ c ≠ '?' ∧ c ≠ ':' := by
    refine ⟨?_, ?_, ?_⟩ <;> rintro rfl <;> exact absurd hc (by decide)
  refine token?_plain ts (i :: is) true hm (isSign_of_isAlpha hc) (starts_of_isAlpha hc) fun h => ?_
  obtain h | h | h := h
  · exact absurd h hne.1
  · exact absurd h hne.2.1
  · exact absurd h hne.2.2

/-- The name of a field is read as a scalar, and its colon may make it a key. -/
theorem steps_name {k : List Char} (hk : IsKey k) (hr : atGap r = true) {j : Nat} {i : Int}
    (hj : m.column + j = 2) (hi : i ≤ 2) (h : ∀ k ∈ k?, k.required = false) :
    ∃ (m' : Mark) (req : Bool), 2 ≤ m'.column ∧
      isStale m' ⟨m.nextBy j, ts.length, req⟩ = false ∧
      Steps (block m (spaces j ++ (k ++ ':' :: r)) ts (i :: is) true k?)
        (block m' (':' :: r) (.scalar true k :: ts) (i :: is) false
          (some ⟨m.nextBy j, ts.length, req⟩)) := by
  have hcol : (m.nextBy j).column = 2 := hj
  have hpos : 0 < (m.nextBy j).column := by rw [hcol]; decide
  obtain ⟨l?, hl, hd⟩ := dropStale?_block (m.nextBy j) (k ++ ':' :: r) ts (i :: is) true k? h
  have hread := read?_key (m := m.nextBy j) hk hr (i + 1) hpos
  have hnote := noteKey?_block (m.nextBy j) (k ++ ':' :: r) ts is l? i hl
  have hplain := plainScalar?_block _ _ _ _ _ _ hread hnote
  have hu := unroll_block (m.nextBy j) (k ++ ':' :: r) ts is true l? (i := i)
    (by rw [hcol]; exact hi)
  obtain ⟨c, k', rfl⟩ := List.exists_cons_of_ne_nil hk.ne_nil
  have hlen : k'.length + 1 ≤ 1024 := hk.length_le
  have hc := hk.isAlpha c (by simp)
  have hn : (block m (spaces j ++ (c :: k' ++ ':' :: r)) ts (i :: is) true k?).toNext =
      block (m.nextBy j) (c :: k' ++ ':' :: r) ts (i :: is) true k? := by
    rw [toNext_spaces]
    exact toNext_starts _ _ _ _ _ _ (starts_of_isAlpha hc)
  have ht : (block (m.nextBy j) (c :: k' ++ ':' :: r) ts (i :: is) true l?).token? c
      (k' ++ ':' :: r) = (block (m.nextBy j) (c :: k' ++ ':' :: r) ts (i :: is) true l?).plainScalar? :=
    token?_alpha ts is hc i hpos
  rw [← hn] at hd
  -- the place of the key is noted before its colon is seen, so it must not get stale
  refine ⟨_, _, ?_, ?_, Steps.token hd hu rfl (ht.trans hplain) rfl ?_⟩
  · simp only [Mark.nextBy]
    omega
  · simp [isStale, Mark.nextBy]
    omega
  · simp only [block, List.length_append, List.length_cons]
    omega

theorem steps_colon {k : KeyPlace} {t : Token} {i : Int} (hr : atGap r = true)
    (hs : isStale m k = false) (hi : i ≤ m.column) {u : Scanner}
    (hv : (block m (':' :: r) (t :: ts) (i :: is) false (some k)).value? = some u)
    (hl : u.input.rest.length < (':' :: r).length) :
    Steps (block m (':' :: r) (t :: ts) (i :: is) false (some k)) u := by
  have hc : Starts ':' := ⟨rfl, rfl, by decide, by decide⟩
  have hd : (block m (':' :: r) (t :: ts) (i :: is) false (some k)).toNext.dropStale? =
      some (block m (':' :: r) (t :: ts) (i :: is) false (some k)) := by
    rw [toNext_starts _ _ _ _ _ _ hc]
    exact dropStale?_fresh _ _ _ _ _ hs
  have hu := unroll_block m (':' :: r) (t :: ts) is false (some k) hi
  exact Steps.token hd hu rfl ((token?_colon _ _ _ _ _ _ hr).trans hv) rfl hl

theorem steps_firstKey {k : List Char} (hk : IsKey k) (hr : atGap r = true) (hm : m.column = 1)
    (h : ∀ k ∈ k?, k.required = false) :
    ∃ m' : Mark, 2 ≤ m'.column ∧
      Steps (block m (' ' :: (k ++ ':' :: r)) ts (0 :: is) true k?)
        (block m' r (.value :: .scalar true k :: .key :: .blockMapping :: ts) (2 :: 0 :: is) false
          none) := by
  obtain ⟨m', req, hm', hs, hk⟩ := steps_name ts is (i := 0) (j := 1) hk hr
    (by rw [hm]) (by decide) h
  have hv := value?_open m' r ts is false (k := ⟨m.nextBy 1, ts.length, req⟩) rfl (i := 0)
    (by simp only [Mark.nextBy]; omega) (.scalar true k)
  have hc : (((m.nextBy 1).column : Nat) : Int) = 2 := by
    simp only [Mark.nextBy]
    omega
  rw [hc] at hv
  refine ⟨m'.next, by simp only [Mark.next]; omega, hk.trans (steps_colon _ _ hr hs (by omega) hv ?_)⟩
  exact Nat.lt_succ_self r.length

theorem steps_nextKey {k : List Char} (hk : IsKey k) (hr : atGap r = true) (hm : m.column = 0)
    (h : ∀ k ∈ k?, k.required = false) :
    ∃ m' : Mark, 2 ≤ m'.column ∧
      Steps (block m (spaces 2 ++ (k ++ ':' :: r)) ts (2 :: is) true k?)
        (block m' r (.value :: .scalar true k :: .key :: ts) (2 :: is) false none) := by
  obtain ⟨m', req, hm', hs, hk⟩ := steps_name ts is (i := 2) (j := 2) hk hr
    (by rw [hm]) (by decide) h
  have hv := value?_next m' r ts is false (k := ⟨m.nextBy 2, ts.length, req⟩) rfl (i := 2)
    (by simp only [Mark.nextBy]; omega) (.scalar true k)
  refine ⟨m'.next, by simp only [Mark.next]; omega, hk.trans (steps_colon _ _ hr hs (by omega) hv ?_)⟩
  exact Nat.lt_succ_self r.length

theorem starts_dash : Starts '-' := ⟨rfl, rfl, by decide, by decide⟩

theorem steps_item (hm : m.column = 0) (h : ∀ k ∈ k?, k.required = false) :
    ∃ m' : Mark, 2 ≤ m'.column ∧
      Steps (block m (spaces 2 ++ '-' :: ' ' :: r) ts (2 :: is) true k?)
        (block m' (' ' :: r) (.blockEntry :: ts) (2 :: is) true none) := by
  have hcol : (m.nextBy 2).column = 2 := by simp [Mark.nextBy, hm]
  have hn : (block m (spaces 2 ++ '-' :: ' ' :: r) ts (2 :: is) true k?).toNext =
      block (m.nextBy 2) ('-' :: ' ' :: r) ts (2 :: is) true k? := by
    rw [toNext_spaces]
    exact toNext_starts _ _ _ _ _ _ starts_dash
  obtain ⟨l?, hl, hd⟩ := dropStale?_block (m.nextBy 2) ('-' :: ' ' :: r) ts (2 :: is) true k? h
  have hu := unroll_block (m.nextBy 2) ('-' :: ' ' :: r) ts is true l? (i := 2) (by rw [hcol]; decide)
  have ht := blockEntry?_next (m.nextBy 2) (' ' :: r) ts is l? (i := 2) (by rw [hcol]; decide) hl
  rw [← hn] at hd
  refine ⟨(m.nextBy 2).next, by simp [Mark.next, hcol],
    Steps.token hd hu rfl ((token?_dash _ _ _ _ _).trans ht) rfl ?_⟩
  simp only [block, List.length_append, List.length_cons]
  omega

theorem isLine_of_startsLine {k : Nat} (hk : k ≤ 2) (hr : startsLine r) : IsLine (spaces k ++ r) :=
  ⟨k, r, hk, hr, rfl⟩

theorem startsLine_dash : startsLine ('-' :: r) := fun _ hc => .inr (Option.some.inj hc).symm

theorem isLine_items (ss : List String) (hx : IsLine x) :
    IsLine (writeItems 2 (spaces 2) (ss.map .text) ++ x) := by
  cases ss with
  | nil => exact hx
  | cons s ss =>
    rw [List.map_cons, writeItems, List.append_assoc, List.append_assoc]
    exact isLine_of_startsLine (Nat.le_refl 2) startsLine_dash

theorem reaches_items (ss : List String) (hx : IsLine x) (hm : m.column = 0)
    (h : ∀ k ∈ k?, k.required = false) :
    Reaches (block m (writeItems 2 (spaces 2) (ss.map .text) ++ x) ts (2 :: is) true k?) x
      ((Cell.itemTokens ss).reverse ++ ts) (2 :: is) := by
  induction ss generalizing m ts k? with
  | nil => exact ⟨m, k?, hm, h, Steps.refl _⟩
  | cons s ss ih =>
    obtain ⟨m₁, hm₁, h₁⟩ := steps_item (r := endLine (writeText 4 s.toList) ++
      (writeItems 2 (spaces 2) (ss.map .text) ++ x)) ts is hm h
    obtain ⟨m₂, l?, hm₂, hl, h₂⟩ := reaches_text (.blockEntry :: ts) is true s.toList (isLine_items ss hx) hm₁
    have he : writeItems 2 (spaces 2) ((s :: ss).map .text) ++ x =
        spaces 2 ++ '-' :: ' ' :: (endLine (writeText 4 s.toList) ++
          (writeItems 2 (spaces 2) (ss.map .text) ++ x)) := by
      simp [writeItems, writeItem]
    have ht : (Cell.itemTokens (s :: ss)).reverse ++ ts =
        (Cell.itemTokens ss).reverse ++ scalarOf s.toList :: .blockEntry :: ts := by
      simp [Cell.itemTokens]
    rw [he, ht]
    exact (ih _ hm₂ hl).of_steps (h₁.trans h₂)

theorem starts_bracket {c : Char} (h : c = '[' ∨ c = ']') : Starts c := by
  obtain rfl | rfl := h <;> exact ⟨rfl, rfl, by decide, by decide⟩

def closingFlow (m : Mark) (x : List Char) (ts : List Token) (is : List Int) : Scanner :=
  { block m (']' :: '\n' :: x) (.flowSequence :: ts) (2 :: is) true none with keys := [none, none] }

theorem steps_openFlow (hm : 2 ≤ m.column) :
    Steps (block m (' ' :: '[' :: ']' :: '\n' :: x) ts (2 :: is) false none)
      (closingFlow m.next.next x ts is) := by
  have hn : (block m (' ' :: '[' :: ']' :: '\n' :: x) ts (2 :: is) false none).toNext =
      block m.next ('[' :: ']' :: '\n' :: x) ts (2 :: is) false none :=
    (toNext_spaces m ('[' :: ']' :: '\n' :: x) ts (2 :: is) false none 1).trans
      (toNext_starts _ _ _ _ _ _ (starts_bracket (.inl rfl)))
  have hd : (block m (' ' :: '[' :: ']' :: '\n' :: x) ts (2 :: is) false none).toNext.dropStale? =
      some (block m.next ('[' :: ']' :: '\n' :: x) ts (2 :: is) false none) := by
    rw [hn]
    rfl
  have hu := unroll_block m.next ('[' :: ']' :: '\n' :: x) ts is false none (i := 2)
    (by simp only [Mark.next]; omega)
  have ht : (block m.next ('[' :: ']' :: '\n' :: x) ts (2 :: is) false none).token? '['
      (']' :: '\n' :: x) = some (closingFlow m.next.next x ts is) := by
    simp only [token?, atDocumentMark]
    simp [openFlow?, closingFlow, block, noteKey?, sign, skip, push, Input.skip, Mark.next_eq]
  exact Steps.token hd hu rfl ht rfl (by simp [block, closingFlow])

theorem steps_closeFlow (hm : 0 < m.column) :
    Steps (closingFlow m x ts is)
      (block m.next.newLine x (.flowSequenceEnd :: .flowSequence :: ts) (2 :: is) true none) := by
  have hn : (closingFlow m x ts is).toNext = closingFlow m x ts is := by
    have h := toNextFrom_starts (starts_bracket (.inr rfl)) true true m ('\n' :: x)
    have hs : (closingFlow m x ts is).toNext = { closingFlow m x ts is with
        input := (toNextFrom true true false m (']' :: '\n' :: x)).1
        keyAllowed := (toNextFrom true true false m (']' :: '\n' :: x)).2 } := rfl
    rw [hs, h]
    rfl
  have hd : (closingFlow m x ts is).toNext.dropStale? = some (closingFlow m x ts is) := by
    rw [hn]
    rfl
  have ht : (closingFlow m x ts is).token? ']' ('\n' :: x) =
      some (block m.next ('\n' :: x) (.flowSequenceEnd :: .flowSequence :: ts) (2 :: is) false
        none) := by
    simp only [token?, atDocumentMark]
    simp [closeFlow?, closingFlow, block, forgetKey?, inFlow, sign, skip, push, Input.skip,
      Mark.next_eq, Nat.ne_of_gt hm]
  exact Steps.token hd rfl rfl ht (toNext_break _ _ _ _ _ _)
    (by simp only [block, closingFlow, List.length_cons]; omega)

theorem reaches_empty (hm : 2 ≤ m.column) :
    Reaches (block m (' ' :: '[' :: ']' :: '\n' :: x) ts (2 :: is) false none) x
      (.flowSequenceEnd :: .flowSequence :: ts) (2 :: is) := by
  have h := steps_closeFlow ts is (m := m.next.next) (x := x) (Nat.succ_pos _)
  exact ⟨_, none, rfl, (fun k hk => by cases hk), (steps_openFlow ts is hm).trans h⟩

theorem atGap_writeField (c : Cell) : atGap (writeField 2 c.toValue ++ x) = true := by
  cases c with
  | text s => rfl
  | texts ss =>
    cases ss with
    | nil => rfl
    | cons s ss => rfl

theorem reaches_cell (c : Cell) (hx : IsLine x) (hm : 2 ≤ m.column) :
    Reaches (block m (writeField 2 c.toValue ++ x) ts (2 :: is) false none) x
      (c.tokens.reverse ++ ts) (2 :: is) := by
  cases c with
  | text s => exact reaches_text ts is false s.toList hx hm
  | texts ss =>
    cases ss with
    | nil => exact reaches_empty ts is hm
    | cons s ss =>
      have hb := toNext_break m (writeItems 2 (spaces 2) ((s :: ss).map .text) ++ x) ts (2 :: is)
        false none
      have hr := reaches_items (m := m.newLine) ts is (s :: ss) hx rfl required_none
      exact hr.of_steps (Steps.of_toNext hb (Nat.le_succ _))

theorem isLine_entries {es : Record} (hk : ∀ e ∈ es, IsKey e.1.toList) (hx : IsLine x) :
    IsLine (writeEntries 2 (spaces 2) (es.map fun e => (e.1, e.2.toValue)) ++ x) := by
  cases es with
  | nil => exact hx
  | cons e es =>
    obtain ⟨c, k, hc⟩ := List.exists_cons_of_ne_nil (hk e (by simp)).ne_nil
    have ha : c.isAlpha = true := (hk e (by simp)).isAlpha c (by rw [hc]; simp)
    rw [List.map_cons, writeEntries, List.append_assoc, List.append_assoc, List.append_assoc, hc]
    exact isLine_of_startsLine (Nat.le_refl 2) fun d hd => .inl (Option.some.inj hd ▸ ha)

theorem reaches_entries {es : Record} (hk : ∀ e ∈ es, IsKey e.1.toList) (hx : IsLine x)
    (hm : m.column = 0) (h : ∀ k ∈ k?, k.required = false) :
    Reaches (block m (writeEntries 2 (spaces 2) (es.map fun e => (e.1, e.2.toValue)) ++ x) ts
      (2 :: is) true k?) x ((es.flatMap Record.entryTokens).reverse ++ ts) (2 :: is) := by
  induction es generalizing m ts k? with
  | nil => exact ⟨m, k?, hm, h, Steps.refl _⟩
  | cons e es ih =>
    have hk' : ∀ e ∈ es, IsKey e.1.toList := fun d hd => hk d (by simp [hd])
    obtain ⟨m₁, hm₁, h₁⟩ := steps_nextKey ts is (hk e (by simp))
      (atGap_writeField (x := writeEntries 2 (spaces 2) (es.map fun e => (e.1, e.2.toValue)) ++ x) e.2)
      hm h
    obtain ⟨m₂, l?, hm₂, hl, h₂⟩ := reaches_cell
      (.value :: .scalar true e.1.toList :: .key :: ts) is e.2
      (isLine_entries hk' hx) hm₁
    have he : writeEntries 2 (spaces 2) ((e :: es).map fun e => (e.1, e.2.toValue)) ++ x =
        spaces 2 ++ (e.1.toList ++ ':' :: (writeField 2 e.2.toValue ++
          (writeEntries 2 (spaces 2) (es.map fun e => (e.1, e.2.toValue)) ++ x))) := by
      simp [writeEntries]
    have ht : ((e :: es).flatMap Record.entryTokens).reverse ++ ts =
        (es.flatMap Record.entryTokens).reverse ++ (e.2.tokens.reverse ++
          .value :: .scalar true e.1.toList :: .key :: ts) := by
      simp [Record.entryTokens]
    rw [he, ht]
    exact (ih _ hk' hm₂ hl).of_steps (h₁.trans h₂)

theorem reaches_record {es : Record} (hes : es ≠ []) (hk : ∀ e ∈ es, IsKey e.1.toList)
    (hx : IsLine x) (hm : m.column = 1) :
    Reaches (block m (' ' :: (writeEntries 2 [] (es.map fun e => (e.1, e.2.toValue)) ++ x)) ts
      (0 :: is) true none) x
      ((es.flatMap Record.entryTokens).reverse ++ .blockMapping :: ts) (2 :: 0 :: is) := by
  cases es with
  | nil => exact absurd rfl hes
  | cons e es =>
    have hk' : ∀ e ∈ es, IsKey e.1.toList := fun d hd => hk d (by simp [hd])
    obtain ⟨m₁, hm₁, h₁⟩ := steps_firstKey ts is (hk e (by simp))
      (atGap_writeField (x := writeEntries 2 (spaces 2) (es.map fun e => (e.1, e.2.toValue)) ++ x) e.2)
      hm required_none
    obtain ⟨m₂, l?, hm₂, hl, h₂⟩ := reaches_cell
      (.value :: .scalar true e.1.toList :: .key :: .blockMapping :: ts) (0 :: is) e.2
      (isLine_entries hk' hx) hm₁
    have he : writeEntries 2 [] ((e :: es).map fun e => (e.1, e.2.toValue)) ++ x =
        e.1.toList ++ ':' :: (writeField 2 e.2.toValue ++
          (writeEntries 2 (spaces 2) (es.map fun e => (e.1, e.2.toValue)) ++ x)) := by
      simp [writeEntries]
    have ht : ((e :: es).flatMap Record.entryTokens).reverse ++ .blockMapping :: ts =
        (es.flatMap Record.entryTokens).reverse ++ (e.2.tokens.reverse ++
          .value :: .scalar true e.1.toList :: .key :: .blockMapping :: ts) := by
      simp [Record.entryTokens]
    rw [he, ht]
    exact (reaches_entries _ _ hk' hx hm₂ hl).of_steps (h₁.trans h₂)

theorem steps_firstRecord (hm : m.column = 0) :
    Steps (block m ('-' :: ' ' :: r) ts [-1] true none)
      (block m.next (' ' :: r) (.blockEntry :: .blockSequence :: ts) [0, -1] true none) := by
  have hd : (block m ('-' :: ' ' :: r) ts [-1] true none).toNext.dropStale? =
      some (block m ('-' :: ' ' :: r) ts [-1] true none) := by
    rw [toNext_starts _ _ _ _ _ _ starts_dash]
    rfl
  have hu := unroll_block m ('-' :: ' ' :: r) ts [] true none (i := -1) (by omega)
  have ht := blockEntry?_open m (' ' :: r) ts [] none (i := -1) (by omega) required_none
  have hc : (m.column : Int) = 0 := by omega
  rw [hc] at ht
  exact Steps.token hd hu rfl ((token?_dash _ _ _ _ _).trans ht) rfl (Nat.lt_succ_self _)

theorem steps_nextRecord (hm : m.column = 0) (h : ∀ k ∈ k?, k.required = false) :
    Steps (block m ('-' :: ' ' :: r) ts [2, 0, -1] true k?)
      (block m.next (' ' :: r) (.blockEntry :: .blockEnd :: ts) [0, -1] true none) := by
  obtain ⟨l?, hl, hd⟩ := dropStale?_block m ('-' :: ' ' :: r) ts [2, 0, -1] true k? h
  have hn := toNext_starts m (' ' :: r) ts [2, 0, -1] true k?
    starts_dash
  have hu := unroll_close m ('-' :: ' ' :: r) ts [-1] true l? (i := 2) (j := 0) (by omega) (by omega)
  have ht := blockEntry?_next m (' ' :: r) (.blockEnd :: ts) [-1] l? (i := 0) (by omega) hl
  have hd' : (block m ('-' :: ' ' :: r) ts [2, 0, -1] true k?).toNext.dropStale? =
      some (block m ('-' :: ' ' :: r) ts [2, 0, -1] true l?) := by
    rw [hn, hd]
  exact Steps.token hd' hu rfl ((token?_dash _ _ _ _ _).trans ht) rfl (Nat.lt_succ_self _)

end

section

variable {m : Mark} {k? : Option KeyPlace} (ts : List Token)

theorem isLine_records (rs : List Record) : IsLine (writeItems 0 [] (rs.map Record.toValue)) := by
  cases rs with
  | nil => exact ⟨0, [], by decide, (fun c hc => by cases hc), rfl⟩
  | cons r rs => exact isLine_of_startsLine (k := 0) (by decide) startsLine_dash

theorem writeItems_record {r : Record} (hr : IsRecord r) (vs : List Value) :
    writeItems 0 [] (r.toValue :: vs) =
      '-' :: ' ' :: (writeEntries 2 [] (r.map fun e => (e.1, e.2.toValue)) ++
        writeItems 0 [] vs) := by
  cases r with
  | nil => exact absurd rfl hr.ne_nil
  | cons e es => rfl

theorem reaches_records {rs : List Record} (hrs : ∀ r ∈ rs, IsRecord r) (hm : m.column = 0)
    (h : ∀ k ∈ k?, k.required = false) :
    Reaches (block m (writeItems 0 [] (rs.map Record.toValue)) ts [2, 0, -1] true k?) []
      ((rs.flatMap fun r =>
        .blockEnd :: .blockEntry :: .blockMapping :: r.flatMap Record.entryTokens).reverse ++ ts)
      [2, 0, -1] := by
  induction rs generalizing m ts k? with
  | nil => exact ⟨m, k?, hm, h, Steps.refl _⟩
  | cons r rs ih =>
    have hr := hrs r (by simp)
    have h₁ := steps_nextRecord ts hm h
      (r := writeEntries 2 [] (r.map fun e => (e.1, e.2.toValue)) ++
        writeItems 0 [] (rs.map Record.toValue))
    obtain ⟨m₂, l?, hm₂, hl, h₂⟩ := reaches_record (m := m.next)
      (.blockEntry :: .blockEnd :: ts) [-1] hr.ne_nil hr.isKey (isLine_records rs)
      (by simp [Mark.next, hm])
    have ht : ((r :: rs).flatMap fun r =>
          Token.blockEnd :: .blockEntry :: .blockMapping :: r.flatMap Record.entryTokens).reverse ++
            ts =
        (rs.flatMap fun r =>
          Token.blockEnd :: .blockEntry :: .blockMapping :: r.flatMap Record.entryTokens).reverse ++
            ((r.flatMap Record.entryTokens).reverse ++
              .blockMapping :: .blockEntry :: .blockEnd :: ts) := by
      simp
    rw [List.map_cons, writeItems_record hr, ht]
    exact (ih _ (fun q hq => hrs q (by simp [hq])) hm₂ hl).of_steps (h₁.trans h₂)

theorem blockEnd_flatMap (rs : List Record) (ts : List Token) :
    rs.flatMap (fun r =>
      Token.blockEnd :: .blockEntry :: .blockMapping :: r.flatMap Record.entryTokens) ++
        .blockEnd :: ts = .blockEnd :: (rs.flatMap Record.tokens ++ ts) := by
  induction rs with
  | nil => rfl
  | cons r rs ih => simp [ih, Record.tokens]

theorem run?_table {r : Record} {rs : List Record} (hr : IsRecord r) (hrs : ∀ r ∈ rs, IsRecord r) :
    let text := writeItems 0 [] ((r :: rs).map Record.toValue)
    run? (text.length + 1) { input := ⟨{}, text⟩ } =
      some (Record.tableTokens (r :: rs)).reverse := by
  have h₁ := steps_firstRecord (m := {}) [] rfl
    (r := writeEntries 2 [] (r.map fun e => (e.1, e.2.toValue)) ++
      writeItems 0 [] (rs.map Record.toValue))
  obtain ⟨m₂, l?, hm₂, hl, h₂⟩ := reaches_record (m := Mark.next {})
    [.blockEntry, .blockSequence] [-1] hr.ne_nil hr.isKey (isLine_records rs) rfl
  obtain ⟨m₃, k?, hm₃, hk, h₃⟩ := reaches_records
    ((r.flatMap Record.entryTokens).reverse ++ [.blockMapping, .blockEntry, .blockSequence])
    hrs hm₂ hl
  have hend := run?_end m₃ ((rs.flatMap fun r => .blockEnd :: .blockEntry :: .blockMapping ::
    r.flatMap Record.entryTokens).reverse ++ ((r.flatMap Record.entryTokens).reverse ++
      [.blockMapping, .blockEntry, .blockSequence])) true k? (i := 2) hm₃ (by decide) hk
  have h := ((h₁.trans h₂).trans h₃).run?_eq hend
  have hts : Record.tableTokens (r :: rs) =
      (.blockSequence :: .blockEntry :: .blockMapping :: r.flatMap Record.entryTokens) ++
        (rs.flatMap (fun r => Token.blockEnd :: .blockEntry :: .blockMapping ::
          r.flatMap Record.entryTokens) ++ [.blockEnd, .blockEnd]) := by
    rw [blockEnd_flatMap rs [.blockEnd]]
    simp [Record.tableTokens, Record.tokens]
  intro text
  have htext : text = '-' :: ' ' :: (writeEntries 2 [] (r.map fun e => (e.1, e.2.toValue)) ++
      writeItems 0 [] (rs.map Record.toValue)) := writeItems_record hr _
  rw [htext]
  refine h.trans (congrArg some ?_)
  rw [hts]
  simp

end

theorem all_key {k : List Char} (hk : IsKey k) : k.all isAllowed = true :=
  List.all_eq_true.mpr fun c hc =>
    isAllowed_of_isPrintable (isPrintable_of_isAlpha (hk.isAlpha c hc))

theorem all_items (ss : List String) :
    (writeItems 2 (spaces 2) (ss.map .text)).all isAllowed = true := by
  have h : isAllowed '-' = true ∧ isAllowed ' ' = true := ⟨rfl, rfl⟩
  induction ss with
  | nil => rfl
  | cons s ss ih =>
    simp only [List.map_cons, writeItems, writeItem, List.all_append, List.all_cons, all_spaces, h, ih,
      all_endLine (all_writeText _ _), Bool.and_self]

theorem all_cell (c : Cell) : (writeField 2 c.toValue).all isAllowed = true := by
  have h : isAllowed '\n' = true ∧ isAllowed ' ' = true := ⟨rfl, rfl⟩
  cases c with
  | text s =>
    rw [Cell.toValue, writeField, List.all_cons, h.2, all_endLine (all_writeText _ _), Bool.and_self]
  | texts ss =>
    cases ss with
    | nil => rfl
    | cons s ss =>
      have hi := all_items (s :: ss)
      rw [List.map_cons] at hi
      rw [Cell.toValue, texts, List.map_cons, writeField, List.all_cons, h.1, hi, Bool.and_self]

theorem all_entries {es : Record} (hk : ∀ e ∈ es, IsKey e.1.toList) {lead : List Char}
    (hl : lead.all isAllowed = true) :
    (writeEntries 2 lead (es.map fun e => (e.1, e.2.toValue))).all isAllowed = true := by
  have h : isAllowed ':' = true := rfl
  induction es generalizing lead with
  | nil => rfl
  | cons e es ih =>
    have hi := ih (fun d hd => hk d (by simp [hd])) (all_spaces 2)
    simp only [List.map_cons, writeEntries, List.all_append, List.all_cons, hl, h,
      all_key (hk e (by simp)), all_cell, hi, Bool.and_self]

theorem all_records {rs : List Record} (hrs : ∀ r ∈ rs, IsRecord r) :
    (writeItems 0 [] (rs.map Record.toValue)).all isAllowed = true := by
  have h : isAllowed '-' = true ∧ isAllowed ' ' = true := ⟨rfl, rfl⟩
  induction rs with
  | nil => rfl
  | cons r rs ih =>
    have hr := hrs r (by simp)
    have he := all_entries hr.isKey (rfl : [].all isAllowed = true)
    have hi := ih fun q hq => hrs q (by simp [hq])
    rw [List.map_cons, writeItems_record hr]
    simp only [List.all_cons, List.all_append, h, he, hi, Bool.and_self]

end Scanner

theorem tokens?_table {r : Record} {rs : List Record} (hrs : ∀ q ∈ r :: rs, IsRecord q) :
    tokens? (writeDocument ((r :: rs).map Record.toValue)) =
      some (Record.tableTokens (r :: rs)) := by
  have ha := all_records hrs
  have hrs' : ∀ q ∈ rs, IsRecord q := fun q hq => hrs q (by simp [hq])
  have hr := run?_table (hrs r (by simp)) hrs'
  have hw : writeDocument ((r :: rs).map Record.toValue) =
      writeItems 0 [] ((r :: rs).map Record.toValue) := rfl
  have hh : (writeItems 0 [] ((r :: rs).map Record.toValue)).head? = some '-' := rfl
  have hb : some '-' ≠ some '\uFEFF' := by decide
  rw [hw, tokens?]
  simp only [hh, if_neg hb, ha, if_true, hr, Option.map_some, List.reverse_reverse]

end EndpointCatalog.Yaml
