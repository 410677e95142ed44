import EndpointCatalog.Text.Bytes

namespace EndpointCatalog.Text.Bytes

variable {n v : Nat} {b t lo hi : UInt8} {bs : Bytes}

theorem toNat_ofNat_of_lt (hn : n < 256) : (UInt8.ofNat n).toNat = n := by
  rw [UInt8.toNat_ofNat']
  exact Nat.mod_eq_of_lt hn

theorem follow?_ofNat (hn : n < 256) : follow? (UInt8.ofNat n) =
    if n < 0x80 then some (0, 0x80, 0xBF)
    else if 0xC2 ≤ n ∧ n ≤ 0xDF then some (1, 0x80, 0xBF)
    else if n = 0xE0 then some (2, 0xA0, 0xBF)
    else if n = 0xED then some (2, 0x80, 0x9F)
    else if 0xE1 ≤ n ∧ n ≤ 0xEF then some (2, 0x80, 0xBF)
    else if n = 0xF0 then some (3, 0x90, 0xBF)
    else if 0xF1 ≤ n ∧ n ≤ 0xF3 then some (3, 0x80, 0xBF)
    else if n = 0xF4 then some (3, 0x80, 0x8F)
    else none := by
  simp only [follow?, Bool.and_eq_true, decide_eq_true_eq, beq_iff_eq, UInt8.le_iff_toNat_le,
    UInt8.lt_iff_toNat_lt, ← UInt8.toNat_inj, toNat_ofNat_of_lt hn]
  rfl

def tail (v : Nat) : UInt8 := UInt8.ofNat (v % 64 + 128)

theorem toNat_tail (v : Nat) : (tail v).toNat = v % 64 + 128 :=
  toNat_ofNat_of_lt (by omega)

theorem isTail_tail (v : Nat) : isTail (tail v) = true := by
  have h128 : (0x80 : UInt8).toNat = 128 := rfl
  have h191 : (0xBF : UInt8).toNat = 191 := rfl
  simp only [isTail, Bool.and_eq_true, decide_eq_true_eq, UInt8.le_iff_toNat_le, toNat_tail]
  omega

def join (v : Nat) (ts : Bytes) : Nat := ts.foldl (fun v t => v * 0x40 + t.toNat % 0x40) v

theorem join_tail (v w : Nat) (ts : Bytes) : join v (tail w :: ts) = join (v * 64 + w % 64) ts := by
  rw [join, List.foldl_cons, toNat_tail]
  congr 1
  omega

theorem pieces_cons_append (ts : Bytes) (hf : follow? b = some (ts.length + 1, lo, hi)) (hl : lo ≤ t)
    (hh : t ≤ hi) (hts : ∀ u ∈ ts, isTail u = true) {c : Char}
    (hc : join (leadBits b (ts.length + 1)) (t :: ts) = c.toNat) :
    pieces (b :: (t :: ts ++ bs)) = some c :: pieces bs := by
  have htails : tails (ts.length + 1) lo hi (t :: (ts ++ bs)) = t :: ts := by
    have hb : (decide (0 < ts.length + 1) && decide (lo ≤ t) && decide (t ≤ hi)) = true := by
      rw [decide_eq_true (Nat.succ_pos _), decide_eq_true hl, decide_eq_true hh]
      rfl
    rw [tails, if_pos hb, Nat.add_sub_cancel, List.take_left]
    have hw : ts.takeWhile isTail = ts := by
      have ha : (ts ++ []).takeWhile isTail = ts ++ [] := List.takeWhile_append_of_pos hts
      rwa [List.append_nil] at ha
    rw [hw]
  have hp : piece b (t :: (ts ++ bs)) = (some c, ts.length + 1) := by
    rw [piece, hf]
    dsimp only
    rw [htails, if_pos List.length_cons, ← join, hc, Char.ofNat_toNat]
  rw [List.cons_append, pieces, hp, List.drop_succ_cons, List.drop_left]

/-! The bounds that a leading byte sets for the next one hold where the bytes spell a character. -/

theorem follow?_of_le_7FF (h : 0x80 ≤ v) (h' : v ≤ 0x7FF) :
    ∃ lo hi, follow? (UInt8.ofNat (v / 64 % 32 + 0xC0)) = some (1, lo, hi) ∧
      lo ≤ tail v ∧ tail v ≤ hi := by
  rw [follow?_ofNat (by omega), if_neg (by omega), if_pos (by omega)]
  simp only [UInt8.le_iff_toNat_le, toNat_tail]
  exact ⟨_, _, rfl, by dsimp; omega, by dsimp; omega⟩

theorem follow?_of_le_FFFF (h : 0x800 ≤ v) (h' : v < 0xD800 ∨ 0xDFFF < v ∧ v ≤ 0xFFFF) :
    ∃ lo hi, follow? (UInt8.ofNat (v / 4096 % 16 + 0xE0)) = some (2, lo, hi) ∧
      lo ≤ tail (v / 64) ∧ tail (v / 64) ≤ hi := by
  rw [follow?_ofNat (by omega), if_neg (by omega), if_neg (by omega)]
  simp only [UInt8.le_iff_toNat_le, toNat_tail]
  split
  · exact ⟨_, _, rfl, by dsimp; omega, by dsimp; omega⟩
  split
  · exact ⟨_, _, rfl, by dsimp; omega, by dsimp; omega⟩
  · rw [if_pos (by omega)]
    exact ⟨_, _, rfl, by dsimp; omega, by dsimp; omega⟩

theorem follow?_of_lt_110000 (h : 0xFFFF < v) (h' : v < 0x110000) :
    ∃ lo hi, follow? (UInt8.ofNat (v / 262144 % 8 + 0xF0)) = some (3, lo, hi) ∧
      lo ≤ tail (v / 4096) ∧ tail (v / 4096) ≤ hi := by
  rw [follow?_ofNat (by omega), if_neg (by omega), if_neg (by omega), if_neg (by omega),
    if_neg (by omega), if_neg (by omega)]
  simp only [UInt8.le_iff_toNat_le, toNat_tail]
  split
  · exact ⟨_, _, rfl, by dsimp; omega, by dsimp; omega⟩
  split
  · exact ⟨_, _, rfl, by dsimp; omega, by dsimp; omega⟩
  · rw [if_pos (by omega)]
    exact ⟨_, _, rfl, by dsimp; omega, by dsimp; omega⟩

theorem pieces_of_le_7F {c : Char} (h : c.toNat ≤ 0x7F) (bs : Bytes) :
    pieces (UInt8.ofNat c.toNat :: bs) = some c :: pieces bs := by
  have hf : follow? (UInt8.ofNat c.toNat) = some (0, 0x80, 0xBF) := by
    rw [follow?_ofNat (by omega), if_pos (by omega)]
  have ht : tails 0 0x80 0xBF bs = [] := by cases bs <;> rfl
  have hp : piece (UInt8.ofNat c.toNat) bs = (some c, 0) := by
    rw [piece, hf]
    dsimp only
    rw [ht, if_pos List.length_nil, List.foldl_nil, leadBits, toNat_ofNat_of_lt (by omega),
      Char.ofNat_toNat]
  rw [pieces, hp, List.drop_zero]

theorem pieces_utf8EncodeChar_append (c : Char) (bs : Bytes) :
    pieces (String.utf8EncodeChar c ++ bs) = some c :: pieces bs := by
  have hv : c.toNat < 0xD800 ∨ 0xDFFF < c.toNat ∧ c.toNat < 0x110000 := c.valid
  have hn : c.val.toNat = c.toNat := rfl
  have hts : ∀ v w, ∀ u ∈ [tail v, tail w], isTail u = true := fun v w =>
    List.forall_mem_cons.mpr ⟨isTail_tail v, List.forall_mem_singleton.mpr (isTail_tail w)⟩
  rw [String.utf8EncodeChar, hn]
  split
  · exact pieces_of_le_7F (by assumption) bs
  split
  · obtain ⟨lo, hi, hf, hl, hh⟩ := follow?_of_le_7FF (v := c.toNat) (by omega) (by assumption)
    refine pieces_cons_append [] hf hl hh (List.forall_mem_nil _) ?_
    change join ((UInt8.ofNat _).toNat % 0x20) _ = _
    rw [join_tail, toNat_ofNat_of_lt (by omega), join, List.foldl_nil]
    omega
  split
  · obtain ⟨lo, hi, hf, hl, hh⟩ := follow?_of_le_FFFF (v := c.toNat) (by omega) (by omega)
    refine pieces_cons_append [tail c.toNat] hf hl hh
      (List.forall_mem_singleton.mpr (isTail_tail _)) ?_
    change join ((UInt8.ofNat _).toNat % 0x10) _ = _
    rw [join_tail, join_tail, toNat_ofNat_of_lt (by omega), join, List.foldl_nil]
    omega
  · obtain ⟨lo, hi, hf, hl, hh⟩ := follow?_of_lt_110000 (v := c.toNat) (by omega) (by omega)
    refine pieces_cons_append [tail (c.toNat / 64), tail c.toNat] hf hl hh (hts _ _) ?_
    change join ((UInt8.ofNat _).toNat % 0x08) _ = _
    rw [join_tail, join_tail, join_tail, toNat_ofNat_of_lt (by omega), join, List.foldl_nil]
    omega

/-- What is written is read as the same text. -/
theorem decode?_encode (s : String) : decode? (encode s) = some s := by
  have h : ∀ cs : List Char, pieces (cs.flatMap String.utf8EncodeChar) = cs.map some := by
    intro cs
    induction cs with
    | nil => rw [List.flatMap_nil, pieces, List.map_nil]
    | cons c cs ih => rw [List.flatMap_cons, pieces_utf8EncodeChar_append, ih, List.map_cons]
  have hp : (s.toList.map some).mapM id = some s.toList := by
    rw [List.mapM_map]
    exact List.mapM_pure.trans (congrArg some (List.map_id _))
  rw [decode?, encode, h, hp, Option.map_some, String.ofList_toList]

end EndpointCatalog.Text.Bytes
