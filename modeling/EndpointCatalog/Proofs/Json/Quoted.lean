import EndpointCatalog.Json.Quoted
import EndpointCatalog.Proofs.Text.Numeral

namespace EndpointCatalog.Json.Quoted

open Text.Numeral

variable {c : Char} {cs rest : List Char}

theorem letters_spec : ∀ p ∈ letters, p.1 ≠ 'u' ∧ letters.lookup p.1 = some p.2 := by decide

theorem hexNumber?_control : ∀ n < 0x20,
    hexNumber? ['0', '0', hexDigit (n / 16), hexDigit (n % 16)] = some n := by decide

theorem escaped?_letter {p : Char × Char} (h : p ∈ letters) (cs : List Char) :
    escaped? (p.1 :: cs) = some (p.2, 1) := by
  obtain ⟨hu, hl⟩ := letters_spec p h
  rw [escaped?.eq_3 _ _ hu, hl, Option.map_some]

theorem escaped?_control (h : c.toNat < 0x20) (cs : List Char) :
    escaped? ('u' :: '0' :: '0' :: hexDigit (c.toNat / 16) :: hexDigit (c.toNat % 16) :: cs) =
      some (c, 5) := by
  have hn : code? ('0' :: '0' :: hexDigit (c.toNat / 16) :: hexDigit (c.toNat % 16) :: cs) =
      some c.toNat := hexNumber?_control c.toNat h
  have hl : isLead c.toNat = false := by
    rw [isLead, decide_eq_false (by omega), Bool.false_and]
  rw [escaped?, hn]
  dsimp only [bind, Option.bind_some]
  rw [hl, if_neg Bool.false_ne_true, charOf?_toNat]
  rfl

theorem read?_shown (hq : c ≠ '"') (hb : c ≠ '\\') (hc : 0x20 ≤ c.toNat) (cs : List Char) :
    read? (c :: cs) = (read? cs).map fun (s, r) => (c :: s, r) := by
  rw [read?, if_neg hq, if_neg hb, if_neg (Nat.not_lt.mpr hc)]

theorem read?_escaped {n : Nat} (h : escaped? cs = some (c, n)) :
    read? ('\\' :: cs) = (read? (cs.drop n)).map fun (s, r) => (c :: s, r) := by
  rw [read?, if_neg (by decide), if_pos rfl]
  split
  · rename_i d m hm
    obtain ⟨rfl, rfl⟩ := Prod.mk.inj (Option.some.inj (hm.symm.trans h))
    rfl
  · rename_i hn
    rw [hn] at h
    cases h

theorem read?_writeChar (c : Char) (cs : List Char) :
    read? (writeChar c ++ cs) = (read? cs).map fun (s, r) => (c :: s, r) := by
  rw [writeChar]
  split
  · rename_i h
    subst h
    exact read?_shown (by decide) (by decide) (by decide) cs
  · split
    · rename_i l d h
      have hd : d = c := by simpa using List.find?_some h
      subst hd
      have hl := escaped?_letter (List.mem_of_find?_eq_some h) cs
      exact read?_escaped hl
    · rename_i h
      have hn : ∀ p ∈ letters, p.2 ≠ c := by simpa using h
      split
      · rename_i hc
        exact read?_escaped (escaped?_control hc cs)
      · rename_i hc
        have hq := hn ('"', '"') (by decide)
        have hb := hn ('\\', '\\') (by decide)
        exact read?_shown (Ne.symm hq) (Ne.symm hb) (Nat.not_lt.mp hc) cs

theorem read?_flatMap_writeChar (s rest : List Char) :
    read? (s.flatMap writeChar ++ '"' :: rest) = some (s, rest) := by
  induction s with
  | nil => rw [List.flatMap_nil, List.nil_append, read?, if_pos rfl]
  | cons c s ih =>
    rw [List.flatMap_cons, List.append_assoc, read?_writeChar, ih]
    rfl

end EndpointCatalog.Json.Quoted
