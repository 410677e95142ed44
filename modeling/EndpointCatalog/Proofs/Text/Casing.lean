import EndpointCatalog.Text.Casing

namespace EndpointCatalog.Text.Casing

open Text.Ranges Text.CaseTable

def isSign (d : Char) : Bool :=
  (0x20 < d.toNat && d.toNat < 0x41) || (0x5A < d.toNat && d.toNat < 0x61)

variable {c d : Char} {before cs : List Char}

theorem bounds_of_isSign (hd : isSign d = true) :
    0x20 < d.toNat ∧ d.toNat < 0x61 ∧ ¬ (0x41 ≤ d.toNat ∧ d.toNat ≤ 0x5A) := by
  simp only [isSign, Bool.or_eq_true, Bool.and_eq_true, decide_eq_true_eq] at hd
  omega

theorem toLower_eq_sign (hd : isSign d = true) : c.toLower = d ↔ c = d := by
  obtain ⟨-, hs, hu⟩ := bounds_of_isSign hd
  by_cases hc : c.val ≥ 'A'.val ∧ c.val ≤ 'Z'.val
  · have ha : 0x41 ≤ c.toNat := hc.1
    have hz : c.toNat ≤ 0x5A := hc.2
    have he : c.toLower.toNat = (c.toNat + 32) % 4294967296 := by
      have hv : c.toLower.val = c.val + 32 := congrArg Char.val (dif_pos hc)
      exact congrArg UInt32.toNat hv
    constructor
    · rintro rfl
      omega
    · rintro rfl
      exact absurd ⟨ha, hz⟩ hu
  · have he : c.toLower = c := dif_neg hc
    rw [he]

theorem toNat_of_ofNat_eq {n : Nat} (h : Char.ofNat n = d) (hd : 0 < d.toNat) : n = d.toNat := by
  by_cases hn : n.isValidChar
  · have he : Char.ofNat n = Char.ofNatAux n hn := dif_pos hn
    rw [he] at h
    exact congrArg Char.toNat h
  · have he : Char.ofNat n = '\x00' := dif_neg hn
    rw [← h, he] at hd
    exact absurd hd (by decide)

theorem lt_shift_of_mem_lowerRuns : ∀ r ∈ lowerRuns, (0x60 : Int) < r.first + r.shift := by
  decide +kernel

theorem shifted_ne_sign (hd : isSign d = true) (hc : ¬ c.toNat < 0x80) :
    shifted lowerRuns c ≠ d := by
  obtain ⟨h0, hs, -⟩ := bounds_of_isSign hd
  rw [shifted]
  split
  · rename_i r hr
    have hm := List.mem_of_find?_eq_some hr
    have hh := List.find?_some hr
    have hl := lt_shift_of_mem_lowerRuns r hm
    have hf : r.first ≤ c.toNat := by
      simp only [Run.holds, Bool.and_eq_true, decide_eq_true_eq] at hh
      exact hh.1.1
    intro he
    have hn := toNat_of_ofNat_eq he (by omega)
    omega
  · rintro rfl
    omega

theorem mem_lowerChar (hd : isSign d = true) : d ∈ lowerChar c ↔ d = c := by
  obtain ⟨h0, hs, -⟩ := bounds_of_isSign hd
  rw [lowerChar]
  split
  · rw [List.mem_singleton, eq_comm, toLower_eq_sign hd, eq_comm]
  rename_i hc
  have hne : d ≠ c := by
    rintro rfl
    omega
  split
  · refine iff_of_false ?_ hne
    rw [List.mem_cons, List.mem_singleton, not_or]
    constructor <;> rintro rfl <;> exact absurd hs (by decide)
  · rw [List.mem_singleton]
    exact iff_of_false (shifted_ne_sign hd hc).symm hne

theorem mem_lowerAfter (hd : isSign d = true) (before cs : List Char) :
    d ∈ lowerAfter before cs ↔ d ∈ cs := by
  obtain ⟨-, hs, -⟩ := bounds_of_isSign hd
  induction cs generalizing before with
  | nil => rfl
  | cons c cs ih =>
    rw [lowerAfter, List.mem_append, List.mem_cons, ih]
    refine or_congr ?_ Iff.rfl
    split
    · rename_i hc
      subst hc
      refine iff_of_false ?_ ?_
      · rw [List.mem_singleton]
        split <;> rintro rfl <;> exact absurd hs (by decide)
      · rintro rfl
        exact absurd hs (by decide)
    · exact mem_lowerChar hd

theorem mem_lower (hd : isSign d = true) : d ∈ lower cs ↔ d ∈ cs := mem_lowerAfter hd [] cs

theorem slash_notMem_lowercase {s : String} (h : '/' ∉ s.toList) : '/' ∉ (lowercase s).toList := by
  rw [lowercase, String.toList_ofList]
  exact mt (mem_lower (by decide)).mp h

end EndpointCatalog.Text.Casing
