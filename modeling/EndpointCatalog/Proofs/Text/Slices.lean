import EndpointCatalog.Proofs.Text.Decoding
import EndpointCatalog.Proofs.Text.Search

namespace EndpointCatalog.Text.Bytes

open Search

variable {c : Char} {v cs needle : List Char} {i : Nat} {b : UInt8} {bs ts : Bytes}

def spell (cs : List Char) : Bytes := cs.flatMap String.utf8EncodeChar

def size (cs : List Char) : Nat := (spell cs).length

/-- Whether a character begins at an offset, or the text ends there. -/
def isBoundary (bs : Bytes) (i : Nat) : Bool :=
  match bs.drop i with
  | [] => i == bs.length
  | b :: _ => !isTail b

/-- The bytes between two offsets, if these are in order and break no character. -/
def slice? (bs : Bytes) (i j : Nat) : Option Bytes :=
  if i ≤ j ∧ isBoundary bs i ∧ isBoundary bs j then some ((bs.drop i).take (j - i)) else none

theorem spell_append (v w : List Char) : spell (v ++ w) = spell v ++ spell w :=
  List.flatMap_append

theorem size_append (v w : List Char) : size (v ++ w) = size v + size w := by
  rw [size, spell_append, List.length_append]
  rfl

theorem size_singleton (c : Char) : size [c] = c.utf8Size := by
  rw [size, spell, List.flatMap_singleton, String.length_utf8EncodeChar]

theorem decode?_spell (cs : List Char) : decode? (spell cs) = some (String.ofList cs) := by
  have h := decode?_encode (String.ofList cs)
  rwa [encode, String.toList_ofList] at h

theorem isTail_eq_false {n : Nat} (hn : n < 256) (h : n < 0x80 ∨ 0xBF < n) :
    isTail (UInt8.ofNat n) = false := by
  have h128 : (0x80 : UInt8).toNat = 128 := rfl
  have h191 : (0xBF : UInt8).toNat = 191 := rfl
  rw [isTail, Bool.and_eq_false_iff, decide_eq_false_iff_not, decide_eq_false_iff_not,
    UInt8.le_iff_toNat_le, UInt8.le_iff_toNat_le, toNat_ofNat_of_lt hn]
  omega

/-- A character has a leading byte, and all others go on with it. -/
theorem exists_utf8EncodeChar_eq (c : Char) :
    ∃ b ts, String.utf8EncodeChar c = b :: ts ∧ isTail b = false ∧ ∀ t ∈ ts, isTail t = true := by
  have hv : c.val.toNat < 0xD800 ∨ 0xDFFF < c.val.toNat ∧ c.val.toNat < 0x110000 := c.valid
  have ht : ∀ v, isTail (UInt8.ofNat (v % 64 + 128)) = true := isTail_tail
  rw [String.utf8EncodeChar]
  generalize c.val.toNat = n at hv
  split
  · exact ⟨_, _, rfl, isTail_eq_false (by omega) (by omega), List.forall_mem_nil _⟩
  split
  · refine ⟨_, _, rfl, isTail_eq_false (by omega) (by omega), ?_⟩
    exact List.forall_mem_singleton.mpr (ht n)
  split
  · refine ⟨_, _, rfl, isTail_eq_false (by omega) (by omega), ?_⟩
    exact List.forall_mem_cons.mpr ⟨ht _, List.forall_mem_singleton.mpr (ht n)⟩
  · refine ⟨_, _, rfl, isTail_eq_false (by omega) (by omega), ?_⟩
    exact List.forall_mem_cons.mpr ⟨ht _, List.forall_mem_cons.mpr ⟨ht _,
      List.forall_mem_singleton.mpr (ht n)⟩⟩

theorem exists_spell_cons (c : Char) :
    ∃ b ts, isTail b = false ∧ (∀ t ∈ ts, isTail t = true) ∧
      ∀ cs, spell (c :: cs) = b :: (ts ++ spell cs) ∧ size (c :: cs) = size cs + ts.length + 1 := by
  obtain ⟨b, ts, he, hb, ht⟩ := exists_utf8EncodeChar_eq c
  have hs : ∀ cs, spell (c :: cs) = b :: (ts ++ spell cs) := by
    intro cs
    rw [spell, List.flatMap_cons, he]
    rfl
  refine ⟨b, ts, hb, ht, fun cs => ⟨hs cs, ?_⟩⟩
  rw [size, hs, List.length_cons, List.length_append, Nat.add_comm ts.length]
  rfl

/-- A text is cut behind each of its characters and nowhere else. -/
theorem isBoundary_spell_iff :
    isBoundary (spell cs) i = true ↔ ∃ v, v <+: cs ∧ i = size v := by
  constructor
  · intro h
    induction cs generalizing i with
    | nil =>
      rw [isBoundary, spell, List.flatMap_nil, List.drop_nil] at h
      exact ⟨[], List.nil_prefix, beq_iff_eq.mp h⟩
    | cons c cs ih =>
      obtain ⟨b, ts, -, ht, hs⟩ := exists_spell_cons c
      by_cases hz : i = 0
      · exact ⟨[], List.nil_prefix, hz⟩
      obtain ⟨j, rfl⟩ := Nat.exists_eq_succ_of_ne_zero hz
      rw [isBoundary, (hs cs).1, List.drop_succ_cons] at h
      by_cases hj : j < ts.length
      · -- inside of a character each byte goes on with it
        rw [List.drop_append_of_le_length (Nat.le_of_lt hj), List.drop_eq_getElem_cons hj] at h
        dsimp only [List.cons_append] at h
        rw [ht _ (List.getElem_mem hj)] at h
        cases h
      · obtain ⟨k, rfl⟩ := Nat.exists_eq_add_of_le (Nat.not_lt.mp hj)
        rw [List.drop_append, List.drop_eq_nil_of_le (Nat.le_add_right _ _), List.nil_append,
          Nat.add_sub_cancel_left] at h
        have hk : isBoundary (spell cs) k = true := by
          rw [isBoundary]
          cases hd : (spell cs).drop k with
          | cons t us =>
            rw [hd] at h
            exact h
          | nil =>
            rw [hd] at h
            simp only [beq_iff_eq, List.length_cons, List.length_append] at h ⊢
            omega
        obtain ⟨v, hv, rfl⟩ := ih hk
        refine ⟨c :: v, (List.prefix_cons_inj c).mpr hv, ?_⟩
        rw [(hs v).2]
        omega
  · rintro ⟨v, ⟨w, rfl⟩, rfl⟩
    rw [isBoundary, spell_append, size, List.drop_left]
    cases w with
    | nil => simp [spell]
    | cons c w =>
      obtain ⟨b, ts, hb, -, hs⟩ := exists_spell_cons c
      rw [(hs w).1]
      dsimp only
      rw [hb]
      rfl

theorem isBoundary_size (h : v <+: cs) : isBoundary (spell cs) (size v) = true :=
  isBoundary_spell_iff.mpr ⟨v, h, rfl⟩

/-- A stretch of a text is cut out by the sizes of what stands in front of its ends. -/
theorem slice?_spell (u v w : List Char) :
    slice? (spell (u ++ v ++ w)) (size u) (size (u ++ v)) = some (spell v) := by
  have hu : u <+: u ++ v ++ w := ⟨v ++ w, (List.append_assoc u v w).symm⟩
  have hs : size (u ++ v) = size u + size v := size_append u v
  have hl : ∀ w, (spell w).length = size w := fun _ => rfl
  rw [slice?, if_pos ⟨by omega, isBoundary_size hu, isBoundary_size (List.prefix_append _ w)⟩, hs,
    Nat.add_sub_cancel_left, List.append_assoc, spell_append, spell_append, List.drop_left' (hl u),
    List.take_left' (hl v)]

def find? (needle : Bytes) : Bytes → Option Nat
  | [] => if needle.isEmpty then some 0 else none
  | b :: bs => if needle.isPrefixOf (b :: bs) then some 0 else (find? needle bs).map (· + 1)

theorem pieces_spell_append (cs : List Char) (bs : Bytes) :
    pieces (spell cs ++ bs) = cs.map some ++ pieces bs := by
  induction cs with
  | nil => rfl
  | cons c cs ih =>
    rw [spell, List.flatMap_cons, List.append_assoc, pieces_utf8EncodeChar_append, ← spell, ih]
    rfl

theorem spell_prefix_iff : spell v <+: spell cs ↔ v <+: cs := by
  constructor
  · rintro ⟨bs, hb⟩
    have hp := pieces_spell_append cs []
    rw [List.append_nil, ← hb, pieces_spell_append] at hp
    have hn : pieces [] = [] := by rw [pieces]
    rw [hn, List.append_nil] at hp
    have hm : v.map some <+: cs.map some := ⟨_, hp⟩
    exact (List.prefix_map_iff_of_injective fun _ _ => Option.some.inj).mp hm
  · rintro ⟨w, rfl⟩
    rw [spell_append]
    exact List.prefix_append _ _

theorem find?_append_of_isTail (hb : isTail b = false) (ht : ∀ t ∈ ts, isTail t = true)
    (needle bs : Bytes) :
    find? (b :: needle) (ts ++ bs) = (find? (b :: needle) bs).map (· + ts.length) := by
  induction ts with
  | nil => simp
  | cons t ts ih =>
    obtain ⟨h, ht⟩ := List.forall_mem_cons.mp ht
    have hn : ¬ (b :: needle).isPrefixOf (t :: (ts ++ bs)) = true := by
      rw [List.isPrefixOf_iff_prefix, List.cons_prefix_cons]
      rintro ⟨rfl, -⟩
      rw [h] at hb
      cases hb
    rw [List.cons_append, find?, if_neg hn, ih ht, Option.map_map]
    rfl

theorem find?_spell (needle cs : List Char) :
    find? (spell needle) (spell cs) = (before? needle.isPrefixOf cs).map size := by
  induction cs with
  | nil =>
    cases needle with
    | nil => rfl
    | cons c needle =>
      obtain ⟨b, ts, -, -, hs⟩ := exists_spell_cons c
      rw [(hs needle).1]
      rfl
  | cons c cs ih =>
    obtain ⟨b, ts, -, ht, hs⟩ := exists_spell_cons c
    have hp : (spell needle).isPrefixOf (spell (c :: cs)) = needle.isPrefixOf (c :: cs) := by
      rw [Bool.eq_iff_iff, List.isPrefixOf_iff_prefix, List.isPrefixOf_iff_prefix,
        spell_prefix_iff]
    rw [(hs cs).1] at hp ⊢
    rw [find?, before?, hp]
    split
    · rfl
    · rename_i hn
      cases needle with
      | nil => exact absurd rfl hn
      | cons d needle =>
        obtain ⟨b', ts', hb', -, hs'⟩ := exists_spell_cons d
        rw [(hs' needle).1] at ih ⊢
        rw [find?_append_of_isTail hb' ht, ih, Option.map_map, Option.map_map, Option.map_map]
        exact congrArg (Option.map · _) (funext fun v => (hs v).2.symm)

def lowerByte (b : UInt8) : UInt8 := if 0x41 ≤ b && b ≤ 0x5A then b + 0x20 else b

theorem lowerByte_of_le {n : Nat} (h : 0x80 ≤ n) (hn : n < 256) :
    lowerByte (UInt8.ofNat n) = UInt8.ofNat n := by
  have h90 : (0x5A : UInt8).toNat = 90 := rfl
  have hb : ¬ UInt8.ofNat n ≤ 0x5A := by
    rw [UInt8.le_iff_toNat_le, toNat_ofNat_of_lt hn]
    omega
  rw [lowerByte, decide_eq_false hb, Bool.and_false, if_neg Bool.false_ne_true]

theorem map_lowerByte_utf8EncodeChar (c : Char) :
    (String.utf8EncodeChar c).map lowerByte = String.utf8EncodeChar c.toLower := by
  by_cases h : c.toNat < 0x80
  · have ha : ∀ n < 0x80, (String.utf8EncodeChar (Char.ofNat n)).map lowerByte =
        String.utf8EncodeChar (Char.ofNat n).toLower := by decide +kernel
    have hc := ha c.toNat h
    rwa [Char.ofNat_toNat] at hc
  · have hl : c.toLower = c := dif_neg fun hz => h (Nat.lt_of_le_of_lt hz.2 (by decide))
    have hv : ¬ c.val.toNat ≤ 0x7F := fun hv => h (Nat.lt_succ_of_le hv)
    have ht : ∀ v, lowerByte (UInt8.ofNat (v % 64 + 128)) = UInt8.ofNat (v % 64 + 128) := fun v =>
      lowerByte_of_le (by omega) (by omega)
    rw [hl, String.utf8EncodeChar, if_neg hv]
    split
    · rw [List.map_cons, List.map_singleton, ht, lowerByte_of_le (by omega) (by omega)]
    split
    · rw [List.map_cons, List.map_cons, List.map_singleton, ht, ht,
        lowerByte_of_le (by omega) (by omega)]
    · rw [List.map_cons, List.map_cons, List.map_cons, List.map_singleton, ht, ht, ht,
        lowerByte_of_le (by omega) (by omega)]

theorem map_lowerByte_spell (cs : List Char) :
    (spell cs).map lowerByte = spell (cs.map Char.toLower) := by
  rw [spell, List.map_flatMap, spell, List.flatMap_map]
  exact congrArg (List.flatMap · cs) (funext map_lowerByte_utf8EncodeChar)

end EndpointCatalog.Text.Bytes
