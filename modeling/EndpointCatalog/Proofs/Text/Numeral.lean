import EndpointCatalog.Text.Numeral

namespace EndpointCatalog.Text.Numeral

variable {ds : List Char} {n : Nat}

theorem charOf?_toNat (c : Char) : charOf? c.toNat = some c := by
  have hv : c.toNat.isValidChar := c.valid
  rw [charOf?, dif_pos hv]
  exact congrArg some (Char.ext (UInt32.toNat_inj.mp rfl))

theorem hexValue?_of_isDigit {c : Char} (h : c.isDigit = true) :
    (hexValue? c).filter (· < 10) = some (c.toNat - '0'.toNat) := by
  have hc : c.toNat - '0'.toNat < 10 := by
    have hn : c.toNat ≤ 57 := of_decide_eq_true (Bool.and_eq_true_iff.mp h).2
    have hz : '0'.toNat = 48 := rfl
    omega
  rw [hexValue?, if_pos h, Option.filter_some, if_pos (decide_eq_true hc)]

theorem foldl_digits (h : ∀ c ∈ ds, c.isDigit = true) (n : Nat) :
    ds.foldl (fun n c => n.bind fun n =>
        ((hexValue? c).filter (· < 10)).map (10 * n + ·)) (some n) =
      some (Nat.ofDigitChars 10 ds n) := by
  induction ds generalizing n with
  | nil => rfl
  | cons c ds ih =>
    obtain ⟨hc, h⟩ := List.forall_mem_cons.mp h
    rw [List.foldl_cons, Option.bind_some, hexValue?_of_isDigit hc, Option.map_some, ih h,
      Nat.ofDigitChars_cons]

theorem isDigit_toDigits (n : Nat) : ∀ c ∈ Nat.toDigits 10 n, c.isDigit = true := fun _ =>
  Nat.isDigit_of_mem_toDigits (by decide) (by decide)

theorem exists_toDigits_eq_cons (n : Nat) :
    ∃ c cs, Nat.toDigits 10 n = c :: cs ∧ c.isDigit = true := by
  obtain ⟨c, cs, hc⟩ := List.exists_cons_of_ne_nil (Nat.toDigits_ne_nil (b := 10) (n := n))
  refine ⟨c, cs, hc, isDigit_toDigits n c ?_⟩
  rw [hc]
  exact List.mem_cons_self

theorem digits?_toDigits (n : Nat) : digits? 10 (Nat.toDigits 10 n) = some n := by
  have hf := foldl_digits (isDigit_toDigits n) 0
  rw [Nat.ofDigitChars_ten_toDigits] at hf
  obtain ⟨c, cs, hc, -⟩ := exists_toDigits_eq_cons n
  rw [hc] at hf ⊢
  exact hf

theorem head?_toDigits (h : 0 < n) : (Nat.toDigits 10 n).head? ≠ some '0' := by
  induction n using Nat.strongRecOn with
  | _ n ih =>
    rw [Nat.toDigits_eq_if (by decide)]
    split
    · intro hd
      have hz := Option.some.inj hd
      rw [Nat.digitChar_eq_zero] at hz
      omega
    · obtain ⟨c, cs, hc, -⟩ := exists_toDigits_eq_cons (n / 10)
      have hi := ih (n / 10) (by omega) (by omega)
      rw [hc] at hi ⊢
      exact hi

end EndpointCatalog.Text.Numeral
