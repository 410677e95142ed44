import EndpointCatalog.Yaml.Token
import EndpointCatalog.Yaml.Value

namespace EndpointCatalog.Yaml

open Quoted Value

theorem isAllowed_of_isPrintable {c : Char} (hc : isPrintable c = true) : isAllowed c = true := by
  simp only [isPrintable, Bool.or_eq_true, Bool.and_eq_true, beq_iff_eq, decide_eq_true_eq] at hc
  simp only [isAllowed, Bool.or_eq_true, Bool.and_eq_true, beq_iff_eq, decide_eq_true_eq]
  omega

theorem all_spaces (n : Nat) : (spaces n).all isAllowed = true := by
  rw [List.all_eq_true]
  intro c hc
  rw [List.eq_of_mem_replicate hc]
  rfl

theorem all_hexDigits (n w : Nat) : (hexDigits n w).all isAllowed = true := by
  have h : ∀ n < 16, isAllowed (hexDigit n) = true := by decide
  induction w generalizing n with
  | zero => rfl
  | succ w ih =>
    have hd := h (n % 16) (Nat.mod_lt n (by decide))
    simp [hexDigits, ih, hd]

theorem all_escape (c : Char) : (escape c).all isAllowed = true := by
  have h : ∀ p ∈ letters, isAllowed p.1 = true := by decide
  have hb : isAllowed '\\' = true := rfl
  cases hl : letterOf? c with
  | some l =>
    obtain ⟨p, hp, rfl⟩ := Option.map_eq_some_iff.mp hl
    rw [escape, hl]
    simp [hb, h p (List.mem_of_find?_eq_some hp)]
  | none =>
    have hx : isAllowed 'x' = true ∧ isAllowed 'u' = true ∧ isAllowed 'U' = true := ⟨rfl, rfl, rfl⟩
    simp only [escape, hl]
    split
    · simp only [List.all_cons, hb, hx, all_hexDigits, Bool.and_self]
    · split <;> simp only [List.all_cons, hb, hx, all_hexDigits, Bool.and_self]

theorem all_writeDouble (s : List Char) : (writeDouble s).all isAllowed = true := by
  have hq : isAllowed '"' = true := rfl
  have h : ∀ c, (if needsEscape c then escape c else [c]).all isAllowed = true := fun c => by
    split
    · exact all_escape c
    · rename_i h
      simp only [needsEscape, Bool.not_eq_true, Bool.or_eq_false_iff, Bool.not_eq_false'] at h
      simp [isAllowed_of_isPrintable h.1.1.1]
  simp only [writeDouble, List.all_cons, List.all_append, List.all_flatMap, h, hq]
  simp

theorem all_singleFrom (n : Nat) (broken : Bool) {s : List Char}
    (hs : ∀ c ∈ s, isPrintable c = true) : (singleFrom n broken s).all isAllowed = true := by
  have hq : isAllowed '\'' = true := rfl
  have hb : ∀ b : Bool, (if b then spaces n else []).all isAllowed = true := fun b => by
    split
    · exact all_spaces n
    · rfl
  induction s generalizing broken with
  | nil => simp only [singleFrom, List.all_append, hb, List.all_cons, hq, List.all_nil, Bool.and_self]
  | cons c s ih =>
    have hc := isAllowed_of_isPrintable (hs c (by simp))
    have h := fun b => ih b fun d hd => hs d (by simp [hd])
    rw [singleFrom]
    split
    · simp only [List.all_cons, hc, h, Bool.and_self]
    · simp only [List.all_append, List.all_cons, hb, hc, h, Bool.and_self, Bool.and_true, Bool.true_and]
      split <;> simp [hq]

theorem all_writeLines (n : Nat) (fresh : Bool) {s : List Char}
    (hs : ∀ c ∈ s, isPrintable c = true) : (Block.writeLines n fresh s).all isAllowed = true := by
  induction s generalizing fresh with
  | nil => rfl
  | cons c s ih =>
    have hc := isAllowed_of_isPrintable (hs c (by simp))
    have h := fun b => ih b fun d hd => hs d (by simp [hd])
    rw [Block.writeLines]
    split
    · simp only [List.all_cons, hc, h, Bool.and_self]
    · simp only [List.all_append, List.all_cons, hc, h, Bool.and_self, Bool.and_true]
      split
      · exact all_spaces n
      · rfl

theorem all_writeLiteral (n : Nat) {s : List Char} (hs : ∀ c ∈ s, isPrintable c = true) :
    (Block.writeLiteral n s).all isAllowed = true := by
  have h : isAllowed '|' = true ∧ isAllowed '\n' = true := ⟨rfl, rfl⟩
  have hi : (Block.indentSign s).all isAllowed = true := by
    rw [Block.indentSign.eq_def]
    split
    · split <;> rfl
    · rfl
  have hc : (Block.chompSign s).all isAllowed = true := by
    rw [Block.chompSign.eq_def]
    split
    · rfl
    · split <;> rfl
    · split
      · rfl
      · split <;> rfl
  simp only [Block.writeLiteral, List.all_cons, List.all_append, h, hi, hc, all_writeLines n true hs,
    Bool.and_self]

theorem all_endLine {cs : List Char} (h : cs.all isAllowed = true) :
    (endLine cs).all isAllowed = true := by
  have hn : isAllowed '\n' = true := rfl
  rw [endLine]
  split
  · exact h
  · simp [h, hn]

theorem all_writeText (n : Nat) (s : List Char) : (writeText n s).all isAllowed = true := by
  rw [writeText]
  split
  · split
    · rename_i h
      simp only [literalAllowed, isShown, Bool.and_eq_true, List.all_eq_true] at h
      exact all_writeLiteral n h.1.1
    · exact all_writeDouble s
  · split
    · rename_i h
      simp only [Plain.allowed, Bool.and_eq_true, List.all_eq_true] at h
      exact List.all_eq_true.mpr fun c hc => isAllowed_of_isPrintable (h.2.1.1.1.1.1 c hc).1
    · split
      · rename_i h
        simp only [singleAllowed, isShown, Bool.and_eq_true, List.all_eq_true] at h
        have hq : isAllowed '\'' = true := rfl
        rw [writeSingle, List.all_cons, hq, all_singleFrom n false h.1.1, Bool.and_self]
      · exact all_writeDouble s

end EndpointCatalog.Yaml
