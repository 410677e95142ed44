import EndpointCatalog.Fault
import EndpointCatalog.Proofs.Text.Strays

namespace EndpointCatalog.Text.Bytes

variable {b lo hi t : UInt8} {n : Nat} {x ts : Bytes} {c : Char}

theorem isTail_of_tails_eq_cons {u : UInt8} (h : tails n lo hi x = t :: ts) (hu : u ∈ ts) :
    0x80 ≤ u.toNat ∧ u.toNat ≤ 0xBF := by
  cases x with
  | nil => cases h
  | cons s x =>
    rw [tails] at h
    split at h
    · obtain ⟨-, rfl⟩ := List.cons_eq_cons.mp h
      have hm := List.all_eq_true.mp List.all_takeWhile u hu
      rwa [isTail, Bool.and_eq_true, decide_eq_true_eq, decide_eq_true_eq,
        UInt8.le_iff_toNat_le, UInt8.le_iff_toNat_le] at hm
    · cases h

theorem ofNat_eq {v : Nat} (h : v = b.toNat) : UInt8.ofNat v = b := by
  rw [h, UInt8.ofNat_toNat]

theorem utf8EncodeChar_of_lt (h : b.toNat < 0x80) :
    String.utf8EncodeChar (Char.ofNat b.toNat) = [b] := by
  have hv : (Char.ofNat b.toNat).val.toNat = b.toNat := toNat_ofNat_of_isValidChar (.inl (by omega))
  rw [String.utf8EncodeChar, hv, if_pos (by omega), UInt8.ofNat_toNat]

theorem utf8EncodeChar_of_tails (hb : 0x80 ≤ b.toNat) (hf : follow? b = some (n, lo, hi))
    (hn : (tails n lo hi x).length = n) :
    String.utf8EncodeChar (Char.ofNat (join (leadBits b n) (tails n lo hi x))) =
      b :: tails n lo hi x := by
  obtain ⟨hr, hc⟩ := follow?_cases hb hf
  obtain ⟨t, ts, ht⟩ := List.exists_cons_of_length_pos (l := tails n lo hi x) (by omega)
  obtain ⟨hl, hh⟩ := tails_eq_cons ht
  have hu : ∀ u ∈ ts, 0x80 ≤ u.toNat ∧ u.toNat ≤ 0xBF := fun u => isTail_of_tails_eq_cons ht
  rw [ht, List.length_cons] at hn
  subst hn
  have hv : (Char.ofNat (join (leadBits b (ts.length + 1)) (t :: ts))).val.toNat = _ :=
    toNat_ofNat_of_isValidChar (join_bounds hb hf hl hh).2
  rw [UInt8.le_iff_toNat_le] at hl hh
  rw [ht, String.utf8EncodeChar, hv]
  clear hv ht
  -- by the number of bytes that the leading one asks for
  obtain ⟨hlen, hc⟩ | ⟨hlen, hc⟩ | ⟨hlen, hc⟩ := hc
  · obtain rfl := List.length_eq_zero_iff.mp (Nat.succ.inj hlen)
    simp only [join, leadBits, List.foldl_cons, List.foldl_nil, List.length_nil]
    rw [if_neg (by omega), if_pos (by omega), List.cons.injEq, List.cons.injEq]
    exact ⟨ofNat_eq (by omega), ofNat_eq (by omega), rfl⟩
  · obtain ⟨u, rfl⟩ := List.length_eq_one_iff.mp (Nat.succ.inj hlen)
    have h1 := hu u List.mem_cons_self
    simp only [join, leadBits, List.foldl_cons, List.foldl_nil, List.length_cons, List.length_nil]
    rw [if_neg (by omega), if_neg (by omega), if_pos (by omega), List.cons.injEq, List.cons.injEq,
      List.cons.injEq]
    exact ⟨ofNat_eq (by omega), ofNat_eq (by omega), ofNat_eq (by omega), rfl⟩
  · obtain ⟨u, us, rfl⟩ := List.exists_cons_of_length_eq_add_one (Nat.succ.inj hlen)
    obtain ⟨u', rfl⟩ := List.length_eq_one_iff.mp (Nat.succ.inj (Nat.succ.inj hlen))
    have h1 := hu u List.mem_cons_self
    have h2 := hu u' (List.mem_cons_of_mem _ List.mem_cons_self)
    simp only [join, leadBits, List.foldl_cons, List.foldl_nil, List.length_cons, List.length_nil]
    rw [if_neg (by omega), if_neg (by omega), if_neg (by omega), List.cons.injEq, List.cons.injEq,
      List.cons.injEq, List.cons.injEq]
    exact ⟨ofNat_eq (by omega), ofNat_eq (by omega), ofNat_eq (by omega), ofNat_eq (by omega), rfl⟩

theorem utf8EncodeChar_of_piece (h : piece b x = (some c, n)) :
    String.utf8EncodeChar c ++ x.drop n = b :: x := by
  by_cases hb : b.toNat < 0x80
  · have hf : follow? b = some (0, 0x80, 0xBF) := by
      rw [← UInt8.ofNat_toNat (x := b), follow?_ofNat b.toNat_lt, if_pos hb]
    have ht : tails 0 0x80 0xBF x = [] := by cases x <;> rfl
    rw [piece, hf] at h
    dsimp only at h
    rw [ht, if_pos List.length_nil, List.foldl_nil, leadBits, Prod.mk.injEq, Option.some.injEq] at h
    obtain ⟨rfl, rfl⟩ := h
    rw [utf8EncodeChar_of_lt hb, List.drop_zero, List.singleton_append]
  · rw [piece] at h
    split at h
    · cases h
    · rename_i m lo hi hf
      dsimp only at h
      split at h
      · rename_i hm
        obtain ⟨hc, rfl⟩ := Prod.mk.inj h
        obtain rfl := Option.some.inj hc
        have he := utf8EncodeChar_of_tails (Nat.not_lt.mp hb) hf hm
        obtain ⟨y, hy⟩ := tails_prefix m lo hi x
        have hd : x.drop m = y := by
          rw [← hy, List.drop_left' hm]
        rw [← join, he, hd, List.cons_append, hy]
      · cases h

theorem encode_of_pieces {x : Bytes} {cs : List Char} (h : (pieces x).mapM id = some cs) :
    cs.flatMap String.utf8EncodeChar = x := by
  induction x using pieces.induct generalizing cs with
  | case1 =>
    rw [pieces] at h
    cases h
    rfl
  | case2 b x ih =>
    rw [pieces, List.mapM_cons] at h
    obtain ⟨c, hc, h⟩ := Option.bind_eq_some_iff.mp h
    obtain ⟨ds, hds, h⟩ := Option.bind_eq_some_iff.mp h
    cases h
    have hp : piece b x = (some c, (piece b x).2) := Prod.ext hc rfl
    rw [List.flatMap_cons, ih hds, utf8EncodeChar_of_piece hp]

/-- The strict reading accepts exactly the bytes of texts. -/
theorem decode?_eq_some_iff {s : String} : decode? x = some s ↔ x = encode s := by
  refine ⟨fun h => ?_, fun h => h ▸ decode?_encode s⟩
  obtain ⟨cs, hcs, rfl⟩ := Option.map_eq_some_iff.mp h
  rw [encode, String.toList_ofList, encode_of_pieces hcs]

end EndpointCatalog.Text.Bytes

namespace EndpointCatalog.Workspace

open Text

variable {w : Workspace} {p : Path} {text : String}

theorem readText_eq_ok : w.readText p = .ok text ↔ w.read p = .ok (Bytes.encode text) := by
  rw [readText]
  cases w.read p with
  | error e =>
    dsimp only
    exact iff_of_false nofun nofun
  | ok bs =>
    dsimp only
    rw [Except.ok.injEq, ← Bytes.decode?_eq_some_iff]
    cases Bytes.decode? bs with
    | none => exact iff_of_false nofun nofun
    | some s => rw [Except.ok.injEq, Option.some.injEq]

theorem readText_eq_error :
    (∃ e, w.readText p = .error e) ↔ ¬ ∃ text, w.read p = .ok (Bytes.encode text) := by
  simp only [← readText_eq_ok]
  cases w.readText p with
  | error e => exact iff_of_true ⟨e, rfl⟩ nofun
  | ok text => exact iff_of_false nofun fun h => h ⟨text, rfl⟩

end EndpointCatalog.Workspace
