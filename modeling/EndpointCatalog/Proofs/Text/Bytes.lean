import EndpointCatalog.Text.Bytes

namespace EndpointCatalog.Text.Bytes

variable {v w m n : Nat} {xs ys : Bytes}

theorem ofNat_cons_lt (hm : m < 256) (hn : n < 256) (h : m < n ∨ m = n ∧ xs < ys) :
    UInt8.ofNat m :: xs < UInt8.ofNat n :: ys := by
  rw [List.cons_lt_cons_iff]
  obtain h | ⟨rfl, h⟩ := h
  · left
    rw [UInt8.lt_iff_toNat_lt, UInt8.toNat_ofNat', UInt8.toNat_ofNat']
    omega
  · exact .inr ⟨rfl, h⟩

/-! The bytes behind a leading byte hold six bits each, the higher bits first. -/

theorem tail_lt (h : v % 64 < w % 64) :
    UInt8.ofNat (v % 64 + 128) :: xs < UInt8.ofNat (w % 64 + 128) :: ys :=
  ofNat_cons_lt (by omega) (by omega) (.inl (by omega))

theorem tail_tail_lt (h : v % 4096 < w % 4096) :
    UInt8.ofNat (v / 64 % 64 + 128) :: UInt8.ofNat (v % 64 + 128) :: xs <
      UInt8.ofNat (w / 64 % 64 + 128) :: UInt8.ofNat (w % 64 + 128) :: ys := by
  apply ofNat_cons_lt (by omega) (by omega)
  have hd : v / 64 % 64 < w / 64 % 64 ∨ v / 64 % 64 = w / 64 % 64 ∧ v % 64 < w % 64 := by omega
  exact hd.imp (by omega) fun hd => ⟨by omega, tail_lt hd.2⟩

theorem tail_tail_tail_lt (h : v % 262144 < w % 262144) :
    UInt8.ofNat (v / 4096 % 64 + 128) :: UInt8.ofNat (v / 64 % 64 + 128) ::
        UInt8.ofNat (v % 64 + 128) :: xs <
      UInt8.ofNat (w / 4096 % 64 + 128) :: UInt8.ofNat (w / 64 % 64 + 128) ::
        UInt8.ofNat (w % 64 + 128) :: ys := by
  apply ofNat_cons_lt (by omega) (by omega)
  have hd : v / 4096 % 64 < w / 4096 % 64 ∨
      v / 4096 % 64 = w / 4096 % 64 ∧ v % 4096 < w % 4096 := by omega
  exact hd.imp (by omega) fun hd => ⟨by omega, tail_tail_lt hd.2⟩

/-- Of two characters the lesser has the lesser bytes, whatever follows. -/
theorem utf8EncodeChar_append_lt {c d : Char} (h : c < d) (xs ys : Bytes) :
    String.utf8EncodeChar c ++ xs < String.utf8EncodeChar d ++ ys := by
  have hv : c.val.toNat < d.val.toNat := h
  have hd : d.val.toNat < 0xD800 ∨ 0xDFFF < d.val.toNat ∧ d.val.toNat < 0x110000 := d.valid
  rw [String.utf8EncodeChar, String.utf8EncodeChar]
  generalize c.val.toNat = v at *
  generalize d.val.toNat = w at *
  -- Equally many bytes are compared by their bits, and else the leading bytes decide.
  split
  · split
    · exact ofNat_cons_lt (by omega) (by omega) (.inl hv)
    split
    · exact ofNat_cons_lt (by omega) (by omega) (.inl (by omega))
    split <;> exact ofNat_cons_lt (by omega) (by omega) (.inl (by omega))
  split
  · split
    · omega
    split
    · have hb : v / 64 < w / 64 ∨ v / 64 = w / 64 ∧ v % 64 < w % 64 := by omega
      apply ofNat_cons_lt (by omega) (by omega)
      exact hb.imp (by omega) fun hb => ⟨by omega, tail_lt hb.2⟩
    split <;> exact ofNat_cons_lt (by omega) (by omega) (.inl (by omega))
  split
  · split
    · omega
    split
    · omega
    split
    · have hb : v / 4096 < w / 4096 ∨ v / 4096 = w / 4096 ∧ v % 4096 < w % 4096 := by omega
      apply ofNat_cons_lt (by omega) (by omega)
      exact hb.imp (by omega) fun hb => ⟨by omega, tail_tail_lt hb.2⟩
    · exact ofNat_cons_lt (by omega) (by omega) (.inl (by omega))
  · split
    · omega
    split
    · omega
    split
    · omega
    have hb : v / 262144 < w / 262144 ∨
      v / 262144 = w / 262144 ∧ v % 262144 < w % 262144 := by omega
    apply ofNat_cons_lt (by omega) (by omega)
    exact hb.imp (by omega) fun hb => ⟨by omega, tail_tail_tail_lt hb.2⟩

theorem encode_lt_of_lex {cs ds : List Char} (h : cs < ds) :
    cs.flatMap String.utf8EncodeChar < ds.flatMap String.utf8EncodeChar := by
  induction h with
  | @nil d ds =>
    rw [List.flatMap_nil, List.flatMap_cons]
    obtain ⟨b, bs, hb⟩ := List.exists_cons_of_ne_nil (String.utf8EncodeChar_ne_nil (c := d))
    rw [hb]
    exact List.Lex.nil
  | @cons c cs ds _ ih =>
    rw [List.flatMap_cons, List.flatMap_cons]
    exact List.append_left_lt ih
  | @rel c cs d ds h =>
    rw [List.flatMap_cons, List.flatMap_cons]
    exact utf8EncodeChar_append_lt h _ _

theorem encode_lt_encode {s t : String} (h : s < t) : encode s < encode t :=
  encode_lt_of_lex (String.lt_iff.mp h)

/-- Two texts are in the order of their bytes. -/
theorem encode_le_encode {s t : String} : encode s ≤ encode t ↔ s ≤ t := by
  rw [← List.not_lt, ← String.not_lt]
  constructor
  · exact fun h hts => h (encode_lt_encode hts)
  · intro h hts
    obtain hst | rfl := Std.le_iff_lt_or_eq.mp (String.not_lt.mp h)
    · exact List.lt_asymm hts (encode_lt_encode hst)
    · exact List.lt_irrefl _ hts

end EndpointCatalog.Text.Bytes
