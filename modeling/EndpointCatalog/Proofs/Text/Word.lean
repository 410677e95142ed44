import EndpointCatalog.Text.Blank
import EndpointCatalog.Text.Word

namespace EndpointCatalog.Text.Word

open Text.Blank

def blankPoints : List Nat :=
  [0x9, 0xA, 0xB, 0xC, 0xD, 0x20, 0x85, 0xA0, 0x1680, 0x2000, 0x2001, 0x2002, 0x2003, 0x2004,
    0x2005, 0x2006, 0x2007, 0x2008, 0x2009, 0x200A, 0x2028, 0x2029, 0x202F, 0x205F, 0x3000]

theorem toNat_mem_blankPoints {c : Char} (h : isBlank c = true) : c.toNat ∈ blankPoints := by
  simp only [isBlank, Bool.or_eq_true, Bool.and_eq_true, decide_eq_true_eq, beq_iff_eq] at h
  simp only [blankPoints, List.mem_cons, List.not_mem_nil, or_false]
  omega

theorem isWord_of_mem_blankPoints : ∀ n ∈ blankPoints, isWord (Char.ofNat n) = false := by
  decide +kernel

theorem isBlank_of_isWord {c : Char} (h : isWord c = true) : isBlank c = false := by
  rw [← Bool.not_eq_true]
  intro hb
  have hw := isWord_of_mem_blankPoints c.toNat (toNat_mem_blankPoints hb)
  rw [Char.ofNat_toNat, h] at hw
  cases hw

theorem ne_of_isWord {c d : Char} (h : isWord c = true) (hd : isWord d = false) : c ≠ d := by
  rintro rfl
  rw [h] at hd
  cases hd

end EndpointCatalog.Text.Word
