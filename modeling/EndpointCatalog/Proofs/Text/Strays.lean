import EndpointCatalog.Proofs.Text.Decoding
import EndpointCatalog.Proofs.Text.Search

namespace EndpointCatalog.Text.Bytes

open Search

variable {b lo hi t : UInt8} {n : Nat} {x y ts us : Bytes}

theorem follow?_cases (hb : 0x80 ≤ b.toNat) (hf : follow? b = some (n, lo, hi)) :
    (0x80 ≤ lo.toNat ∧ hi.toNat ≤ 0xBF) ∧
      (n = 1 ∧ 0xC2 ≤ b.toNat ∧ b.toNat ≤ 0xDF ∨
        n = 2 ∧ 0xE0 ≤ b.toNat ∧ b.toNat ≤ 0xEF ∧ (b.toNat = 0xE0 → 0xA0 ≤ lo.toNat) ∧
          (b.toNat = 0xED → hi.toNat ≤ 0x9F) ∨
        n = 3 ∧ 0xF0 ≤ b.toNat ∧ b.toNat ≤ 0xF4 ∧ (b.toNat = 0xF0 → 0x90 ≤ lo.toNat) ∧
          (b.toNat = 0xF4 → hi.toNat ≤ 0x8F)) := by
  rw [← UInt8.ofNat_toNat (x := b), follow?_ofNat b.toNat_lt, if_neg (by omega)] at hf
  split at hf
  · cases hf
    exact ⟨by decide, by omega⟩
  split at hf
  · cases hf
    exact ⟨by decide, .inr (.inl ⟨rfl, by omega, by omega, fun _ => by decide, by omega⟩)⟩
  split at hf
  · cases hf
    exact ⟨by decide, .inr (.inl ⟨rfl, by omega, by omega, by omega, fun _ => by decide⟩)⟩
  split at hf
  · cases hf
    exact ⟨by decide, .inr (.inl ⟨rfl, by omega, by omega, by omega, by omega⟩)⟩
  split at hf
  · cases hf
    exact ⟨by decide, .inr (.inr ⟨rfl, by omega, by omega, fun _ => by decide, by omega⟩)⟩
  split at hf
  · cases hf
    exact ⟨by decide, .inr (.inr ⟨rfl, by omega, by omega, by omega, by omega⟩)⟩
  split at hf
  · cases hf
    exact ⟨by decide, .inr (.inr ⟨rfl, by omega, by omega, by omega, fun _ => by decide⟩)⟩
  · cases hf

theorem join_bounds (hb : 0x80 ≤ b.toNat) (hf : follow? b = some (us.length + 1, lo, hi))
    (h1 : lo ≤ t) (h2 : t ≤ hi) :
    0x80 ≤ join (leadBits b (us.length + 1)) (t :: us) ∧
      (join (leadBits b (us.length + 1)) (t :: us)).isValidChar := by
  have hu : ∀ u : UInt8, u.toNat % 64 < 64 := fun u => Nat.mod_lt _ (by omega)
  rw [UInt8.le_iff_toNat_le] at h1 h2
  rw [Nat.isValidChar]
  obtain ⟨hr, ⟨hl, h⟩ | ⟨hl, h⟩ | ⟨hl, h⟩⟩ := follow?_cases hb hf
  · obtain rfl := List.length_eq_zero_iff.mp (Nat.succ.inj hl)
    simp only [join, leadBits, List.foldl_cons, List.foldl_nil, List.length_nil]
    omega
  · obtain ⟨u, rfl⟩ := List.length_eq_one_iff.mp (Nat.succ.inj hl)
    have h1 := hu u
    simp only [join, leadBits, List.foldl_cons, List.foldl_nil, List.length_cons, List.length_nil]
    omega
  · obtain ⟨u, us, rfl⟩ := List.exists_cons_of_length_eq_add_one (Nat.succ.inj hl)
    obtain ⟨u', rfl⟩ := List.length_eq_one_iff.mp (Nat.succ.inj (Nat.succ.inj hl))
    have h1 := hu u
    have h2 := hu u'
    simp only [join, leadBits, List.foldl_cons, List.foldl_nil, List.length_cons, List.length_nil]
    omega

theorem toNat_ofNat_of_isValidChar (h : n.isValidChar) : (Char.ofNat n).toNat = n := by
  rw [Char.ofNat, dif_pos h]
  rfl

/-! The bytes that go on with a character end in front of a byte of ASCII. -/

theorem not_isTail_of_lt (h : b < 0x80) : isTail b = false := by
  have hn : ¬ 0x80 ≤ b := by
    rw [UInt8.le_iff_toNat_le]
    rw [UInt8.lt_iff_toNat_lt] at h
    omega
  rw [isTail, decide_eq_false hn, Bool.false_and]

theorem takeWhile_isTail_take (n : Nat) (hy : ∀ b ∈ y.head?, b < 0x80) :
    ((x ++ y).take n).takeWhile isTail = (x.take n).takeWhile isTail := by
  induction x generalizing n with
  | nil =>
    cases y with
    | nil => rfl
    | cons b y =>
      cases n with
      | zero => rfl
      | succ n =>
        rw [List.nil_append, List.take_succ_cons, List.takeWhile_cons,
          not_isTail_of_lt (hy b rfl)]
        rfl
  | cons t x ih =>
    cases n with
    | zero => rfl
    | succ n =>
      rw [List.cons_append, List.take_succ_cons, List.take_succ_cons, List.takeWhile_cons,
        List.takeWhile_cons, ih]

theorem tails_append (n : Nat) (hlo : 0x80 ≤ lo.toNat) (hi : UInt8)
    (hy : ∀ b ∈ y.head?, b < 0x80) : tails n lo hi (x ++ y) = tails n lo hi x := by
  cases x with
  | nil =>
    cases y with
    | nil => rfl
    | cons b y =>
      have hb := hy b rfl
      have hn : ¬ lo ≤ b := by
        rw [UInt8.le_iff_toNat_le]
        rw [UInt8.lt_iff_toNat_lt] at hb
        exact fun h => absurd (Nat.lt_of_lt_of_le hb hlo) (Nat.not_lt.mpr h)
      have ht : tails n lo hi (b :: y) = [] := by
        rw [tails, decide_eq_false hn, Bool.and_false, Bool.false_and]
        rfl
      exact ht
  | cons t x => rw [List.cons_append, tails, tails, takeWhile_isTail_take (n - 1) hy]

theorem tails_prefix (n : Nat) (lo hi : UInt8) (x : Bytes) : tails n lo hi x <+: x := by
  cases x with
  | nil => exact List.nil_prefix
  | cons t x =>
    rw [tails]
    split
    · exact (List.prefix_cons_inj t).mpr
        ((List.takeWhile_prefix _).trans (List.take_prefix _ _))
    · exact List.nil_prefix

theorem mem_tails (hlo : 0x80 ≤ lo.toNat) (ht : t ∈ tails n lo hi x) : 0x80 ≤ t.toNat := by
  cases x with
  | nil => cases ht
  | cons s x =>
    rw [tails] at ht
    split at ht
    · rename_i h
      simp only [Bool.and_eq_true, decide_eq_true_eq, UInt8.le_iff_toNat_le] at h
      obtain rfl | ht := List.mem_cons.mp ht
      · exact Nat.le_trans hlo h.1.2
      · have hm := List.all_eq_true.mp List.all_takeWhile t ht
        rw [isTail, Bool.and_eq_true, decide_eq_true_eq, UInt8.le_iff_toNat_le] at hm
        exact hm.1
    · cases ht

theorem tails_eq_cons {t : UInt8} (h : tails n lo hi x = t :: ts) : lo ≤ t ∧ t ≤ hi := by
  cases x with
  | nil => cases h
  | cons s x =>
    rw [tails] at h
    split at h
    · rename_i hs
      simp only [Bool.and_eq_true, decide_eq_true_eq] at hs
      obtain ⟨rfl, -⟩ := List.cons_eq_cons.mp h
      exact ⟨hs.1.2, hs.2⟩
    · cases h

/-- A piece that begins outside ASCII: the bytes that belong to it, and what it spells. -/
theorem piece_of_ge (hb : 0x80 ≤ b.toNat) (x : Bytes) :
    ∃ ts, ts <+: x ∧ (∀ t ∈ ts, 0x80 ≤ t.toNat) ∧ (piece b x).2 = ts.length ∧
      0x80 ≤ ((piece b x).1.getD '\uFFFD').toNat ∧
      ∀ y : Bytes, (∀ c ∈ y.head?, c < 0x80) → piece b (x ++ y) = piece b x := by
  cases hf : follow? b with
  | none =>
    have hp : ∀ z, piece b z = (none, 0) := fun z => by rw [piece, hf]
    rw [hp]
    exact ⟨[], List.nil_prefix, List.forall_mem_nil _, rfl, by decide, fun y _ => hp _⟩
  | some r =>
    obtain ⟨n, lo, hi⟩ := r
    have hlo := (follow?_cases hb hf).1.1
    have hp : ∀ z, piece b z = if (tails n lo hi z).length = n then
        (some (Char.ofNat (join (leadBits b n) (tails n lo hi z))), n)
      else (none, (tails n lo hi z).length) := fun z => by rw [piece, hf]; rfl
    refine ⟨tails n lo hi x, tails_prefix n lo hi x, fun t => mem_tails hlo, ?_, ?_, ?_⟩
    · rw [hp]
      split
      · exact Eq.symm ‹_›
      · rfl
    -- a character that several bytes spell, or the one that stands for a fault
    · rw [hp]
      split
      · rename_i hl
        have hn : n ≠ 0 := by
          obtain ⟨-, h⟩ := follow?_cases hb hf
          omega
        obtain ⟨t, ts, hts⟩ := List.exists_cons_of_ne_nil
          (List.length_pos_iff.mp (hl ▸ Nat.pos_of_ne_zero hn))
        obtain ⟨h1, h2⟩ := tails_eq_cons hts
        rw [hts, List.length_cons] at hl
        subst hl
        obtain ⟨hj, hv⟩ := join_bounds hb hf h1 h2
        rw [hts, Option.getD_some, toNat_ofNat_of_isValidChar hv]
        exact hj
      · exact (by decide : 0x80 ≤ '\uFFFD'.toNat)
    · intro y hy
      rw [hp, hp, tails_append n hlo hi hy]

/-! The text with the strays and the text without them. -/

def read (x : Bytes) : List Char := (pieces x).map (·.getD '\uFFFD')

/-- The text that the bytes of ASCII spell alone. -/
def plain (x : Bytes) : List Char :=
  (x.filter (· < 0x80)).map fun b => Char.ofNat b.toNat

def IsAscii (cs : List Char) : Prop := ∀ c ∈ cs, c.toNat < 0x80

instance (cs : List Char) : Decidable (IsAscii cs) :=
  decidable_of_iff (cs.all (·.toNat < 0x80) = true) (by simp [IsAscii])

def written (cs : List Char) : Bytes := cs.map fun c => UInt8.ofNat c.toNat

/-- What a way to read bytes as texts has to keep. -/
structure IsReading (f : Bytes → List Char) : Prop where
  written_append : ∀ cs y, IsAscii cs → f (written cs ++ y) = cs ++ f y
  append : ∀ x y, (∀ b ∈ y.head?, b < 0x80) → f (x ++ y) = f x ++ f y
  filter : ∀ x, (f x).filter (·.toNat < 0x80) = plain x

theorem toList_decodeLossy (x : Bytes) : (decodeLossy x).toList = read x := String.toList_ofList

theorem ofNat_lt {c : Char} (h : c.toNat < 0x80) : UInt8.ofNat c.toNat < 0x80 := by
  rw [UInt8.lt_iff_toNat_lt, toNat_ofNat_of_lt (by omega)]
  exact h

theorem lt_of_mem_head?_written_append {cs : List Char} (hn : cs ≠ []) (h : IsAscii cs) (y : Bytes) :
    ∀ b ∈ (written cs ++ y).head?, b < 0x80 := by
  obtain ⟨c, cs, rfl⟩ := List.exists_cons_of_ne_nil hn
  intro b hb
  obtain rfl := Option.some.inj hb
  exact ofNat_lt (h c List.mem_cons_self)

theorem plain_append (x y : Bytes) : plain (x ++ y) = plain x ++ plain y := by
  rw [plain, List.filter_append, List.map_append]
  rfl

theorem plain_cons_of_ge (hb : 0x80 ≤ b.toNat) (x : Bytes) : plain (b :: x) = plain x := by
  have hn : ¬ b < 0x80 := by
    rw [UInt8.lt_iff_toNat_lt]
    exact Nat.not_lt.mpr hb
  rw [plain, List.filter_cons_of_neg (by simpa using hn)]
  rfl

theorem plain_cons_ofNat {c : Char} (h : c.toNat < 0x80) (x : Bytes) :
    plain (UInt8.ofNat c.toNat :: x) = c :: plain x := by
  rw [plain, List.filter_cons_of_pos (by simpa using ofNat_lt h), List.map_cons,
    toNat_ofNat_of_lt (by omega), Char.ofNat_toNat]
  rfl

theorem plain_of_ge (h : ∀ t ∈ x, 0x80 ≤ t.toNat) : plain x = [] := by
  induction x with
  | nil => rfl
  | cons b x ih =>
    obtain ⟨hb, hx⟩ := List.forall_mem_cons.mp h
    rw [plain_cons_of_ge hb, ih hx]

theorem written_append_of_cons {f : Bytes → List Char}
    (h : ∀ c y, c.toNat < 0x80 → f (UInt8.ofNat c.toNat :: y) = c :: f y) (cs : List Char) (y : Bytes)
    (hcs : IsAscii cs) : f (written cs ++ y) = cs ++ f y := by
  induction cs with
  | nil => rfl
  | cons c cs ih =>
    obtain ⟨hc, hcs⟩ := List.forall_mem_cons.mp hcs
    exact (h c _ hc).trans (congrArg _ (ih hcs))

theorem isReading_plain : IsReading plain where
  written_append := written_append_of_cons fun _ y h => plain_cons_ofNat h y
  append x y _ := plain_append x y
  filter x := by
    rw [List.filter_eq_self]
    intro c hc
    obtain ⟨b, hb, rfl⟩ := List.mem_map.mp hc
    have hl : b.toNat < 0x80 :=
      UInt8.lt_iff_toNat_lt.mp (of_decide_eq_true (List.mem_filter.mp hb).2)
    rw [toNat_ofNat_of_isValidChar (.inl (by omega))]
    exact decide_eq_true hl

theorem read_nil : read [] = [] := by
  rw [read, pieces]
  rfl

theorem read_cons_of_ge (hb : 0x80 ≤ b.toNat) (x : Bytes) :
    ∃ c ts x', x = ts ++ x' ∧ (∀ t ∈ ts, 0x80 ≤ t.toNat) ∧ 0x80 ≤ c.toNat ∧
      ∀ y : Bytes, (∀ c ∈ y.head?, c < 0x80) → read (b :: (x ++ y)) = c :: read (x' ++ y) := by
  obtain ⟨ts, ⟨x', rfl⟩, hts, hl, hc, hy⟩ := piece_of_ge hb x
  refine ⟨_, ts, x', rfl, hts, hc, fun y hh => ?_⟩
  rw [read, pieces, List.map_cons, hy y hh, hl, List.append_assoc, List.drop_left]
  rfl

theorem read_cons_ofNat {c : Char} (h : c.toNat < 0x80) (x : Bytes) :
    read (UInt8.ofNat c.toNat :: x) = c :: read x := by
  rw [read, pieces_of_le_7F (Nat.le_of_lt_succ h), List.map_cons]
  rfl

theorem exists_eq_ofNat (h : b.toNat < 0x80) :
    ∃ c : Char, c.toNat < 0x80 ∧ b = UInt8.ofNat c.toNat := by
  have hc := toNat_ofNat_of_isValidChar (n := b.toNat) (.inl (by omega))
  exact ⟨Char.ofNat b.toNat, by rw [hc]; exact h, by rw [hc, UInt8.ofNat_toNat]⟩

/-- The pieces of bytes can be told by the pieces of a shorter rest. -/
theorem read_induction {P : Bytes → Prop} (nil : P [])
    (ascii : ∀ (c : Char) x, c.toNat < 0x80 → P x → P (UInt8.ofNat c.toNat :: x))
    (stray : ∀ b x, 0x80 ≤ b.toNat → (∀ x', x' <:+ x → P x') → P (b :: x)) (x : Bytes) : P x := by
  have h : ∀ n (x : Bytes), x.length ≤ n → P x := by
    intro n
    induction n with
    | zero =>
      intro x hx
      rw [List.length_eq_zero_iff.mp (Nat.le_zero.mp hx)]
      exact nil
    | succ n ih =>
      intro x hx
      cases x with
      | nil => exact nil
      | cons b x =>
        have hl : x.length ≤ n := Nat.le_of_succ_le_succ hx
        by_cases hb : b.toNat < 0x80
        · obtain ⟨c, hc, rfl⟩ := exists_eq_ofNat hb
          exact ascii c x hc (ih x hl)
        · exact stray b x (Nat.not_lt.mp hb) fun x' h => ih x' (Nat.le_trans h.length_le hl)
  exact h x.length x (Nat.le_refl _)

theorem isReading_read : IsReading read where
  written_append := written_append_of_cons fun _ y h => read_cons_ofNat h y
  append x y hy := by
    induction x using read_induction with
    | nil => rw [List.nil_append, read_nil, List.nil_append]
    | ascii c x hc ih => rw [List.cons_append, read_cons_ofNat hc, read_cons_ofNat hc, ih]; rfl
    | stray b x hb ih =>
      obtain ⟨c, ts, x', rfl, -, -, h⟩ := read_cons_of_ge hb x
      have h0 := h [] (fun _ h => by cases h)
      rw [List.append_nil, List.append_nil] at h0
      rw [List.cons_append, h y hy, h0, ih x' (List.suffix_append _ _)]
      rfl
  filter x := by
    induction x using read_induction with
    | nil => rw [read_nil]; rfl
    | ascii c x hc ih =>
      rw [read_cons_ofNat hc, List.filter_cons_of_pos (by simpa using hc), ih, plain_cons_ofNat hc]
    | stray b x hb ih =>
      obtain ⟨c, ts, x', rfl, hts, hc, h⟩ := read_cons_of_ge hb x
      have h0 := h [] (fun _ h => by cases h)
      rw [List.append_nil, List.append_nil] at h0
      rw [h0, List.filter_cons_of_neg (by simpa using hc), ih x' (List.suffix_append _ _),
        plain_cons_of_ge hb, plain_append, plain_of_ge hts, List.nil_append]

/-- Whether the bytes of `w` follow one another wherever `w` is in the text without the strays. -/
def IsWhole (w : List Char) : Bytes → Prop
  | [] => True
  | b :: bs => (b < 0x80 → w <+: plain (b :: bs) → written w <+: b :: bs) ∧ IsWhole w bs

instance decidableIsWhole (w : List Char) : (x : Bytes) → Decidable (IsWhole w x)
  | [] => isTrue trivial
  | b :: bs =>
    have := decidableIsWhole w bs
    inferInstanceAs (Decidable ((b < 0x80 → w <+: plain (b :: bs) → written w <+: b :: bs) ∧
      IsWhole w bs))

variable {w : List Char}

theorem IsWhole.infix_of_infix (hx : IsWhole w x) (hn : w ≠ []) (h : w <:+: plain x) :
    written w <:+: x := by
  induction x with
  | nil => exact absurd (List.infix_nil.mp h) hn
  | cons b x ih =>
    obtain ⟨hb, hx⟩ := hx
    by_cases hlt : b.toNat < 0x80
    · obtain ⟨c, hc, rfl⟩ := exists_eq_ofNat hlt
      have hp := plain_cons_ofNat hc x
      rw [hp, List.infix_cons_iff] at h
      obtain h | h := h
      · exact (hb (ofNat_lt hc) (hp ▸ h)).isInfix
      · exact (ih hx h).trans (List.suffix_cons _ x).isInfix
    · rw [plain_cons_of_ge (Nat.not_lt.mp hlt)] at h
      exact (ih hx h).trans (List.suffix_cons b x).isInfix

variable {f : Bytes → List Char}

theorem IsReading.infix_plain (hf : IsReading f) (hw : IsAscii w) (h : w <:+: f x) :
    w <:+: plain x := by
  have hi := h.filter (·.toNat < 0x80)
  rwa [hf.filter, List.filter_eq_self.mpr fun c hc => decide_eq_true (hw c hc)] at hi

/-- However the strays are read, the same words are found among the rest. -/
theorem IsReading.contains_eq (hf : IsReading f) (hn : w ≠ []) (hw : IsAscii w) (hx : IsWhole w x) :
    contains w (f x) = contains w (plain x) := by
  rw [Bool.eq_iff_iff, contains_iff, contains_iff]
  refine ⟨hf.infix_plain hw, fun h => ?_⟩
  obtain ⟨y, z, hyz⟩ := hx.infix_of_infix hn h
  refine ⟨f y, f z, ?_⟩
  rw [← hyz, List.append_assoc, List.append_assoc,
    hf.append _ _ (lt_of_mem_head?_written_append hn hw z), hf.written_append w z hw]

end EndpointCatalog.Text.Bytes
