import EndpointCatalog.Text.Casing
import Mathlib.Data.List.Basic

namespace EndpointCatalog.Text.Casing

open Text.Ranges Text.CaseTable

/-- Whether the nearest character that is not passed over has a case, where `behind` says so of
what follows the text. -/
def casedFirst (behind : Bool) (cs : List Char) : Bool :=
  match cs.dropWhile (holds ignorableRanges) with
  | [] => behind
  | c :: _ => holds casedRanges c

/-- The lower case of a part of a text, by what stands before it and behind it. -/
def lowerBetween (before behind : Bool) : List Char → List Char
  | [] => []
  | c :: cs =>
    (if c = 'Σ' then [if before && !casedFirst behind cs then 'ς' else 'σ'] else lowerChar c) ++
      lowerBetween (casedFirst before [c]) behind cs

variable {before behind : Bool} {x y : List Char}

theorem casedFirst_false (x : List Char) : casedFirst false x = nextIsCased x := rfl

theorem casedFirst_append (b : Bool) (x y : List Char) :
    casedFirst b (x ++ y) = casedFirst (casedFirst b y) x := by
  induction x with
  | nil => rfl
  | cons c x ih =>
    by_cases hc : holds ignorableRanges c
    · simpa only [casedFirst, List.cons_append, List.dropWhile_cons_of_pos hc] using ih
    · simp only [casedFirst, List.cons_append, List.dropWhile_cons_of_neg hc]

theorem lowerAfter_eq (x y : List Char) :
    lowerAfter x y = lowerBetween (nextIsCased x) false y := by
  induction y generalizing x with
  | nil => rfl
  | cons c y ih =>
    have hc : nextIsCased (c :: x) = casedFirst (nextIsCased x) [c] := by
      rw [← casedFirst_false, ← casedFirst_false, ← casedFirst_append, List.singleton_append]
    rw [lowerAfter, lowerBetween, ih, hc, casedFirst_false]

theorem lower_eq (x : List Char) : lower x = lowerBetween false false x := lowerAfter_eq [] x

theorem lowerBetween_append (before behind : Bool) (x y : List Char) :
    lowerBetween before behind (x ++ y) =
      lowerBetween before (casedFirst behind y) x ++
        lowerBetween (casedFirst before x.reverse) behind y := by
  induction x generalizing before with
  | nil => rfl
  | cons c x ih =>
    rw [List.cons_append, lowerBetween, lowerBetween, ih, casedFirst_append, List.reverse_cons,
      casedFirst_append, List.append_assoc]

theorem casedFirst_singleton (b : Bool) (c : Char) :
    casedFirst b [c] = if holds ignorableRanges c then b else holds casedRanges c := by
  by_cases hc : holds ignorableRanges c
  · rw [casedFirst, List.dropWhile_cons_of_pos hc, if_pos hc]
    rfl
  · rw [casedFirst, List.dropWhile_cons_of_neg hc, if_neg hc]

theorem casedFirst_true (h : casedFirst false x = true) : casedFirst true x = true := by
  rw [casedFirst] at h ⊢
  split
  · rfl
  · rename_i c cs hx
    rwa [hx] at h

theorem not_passed_sigma : ¬ holds ignorableRanges 'Σ' := by decide +kernel

/-- A capital sigma behind a letter can end a word, and never does where nothing stands before. -/
theorem lowerBetween_behind_letter (behind : Bool) (x : List Char) :
    lowerBetween true behind x = lowerBetween false behind x ∨
      (lowerBetween true behind x).count 'σ' < (lowerBetween false behind x).count 'σ' := by
  induction x with
  | nil => exact .inl rfl
  | cons c x ih =>
    rw [lowerBetween, lowerBetween, casedFirst_singleton, casedFirst_singleton]
    by_cases hc : holds ignorableRanges c
    · have hs : c ≠ 'Σ' := by
        rintro rfl
        exact not_passed_sigma hc
      rw [if_pos hc, if_pos hc, if_neg hs, if_neg hs, List.count_append, List.count_append,
        List.append_right_inj, Nat.add_lt_add_iff_left]
      exact ih
    · rw [if_neg hc, if_neg hc, List.append_left_inj, List.count_append, List.count_append,
        Nat.add_lt_add_iff_right]
      by_cases hs : c = 'Σ'
      · subst hs
        cases casedFirst behind x <;> simp
      · exact .inl (by rw [if_neg hs, if_neg hs])

theorem lowerBetween_before_letter (before : Bool) (x : List Char) :
    lowerBetween before true x = lowerBetween before false x ∨
      (lowerBetween before true x).count 'ς' < (lowerBetween before false x).count 'ς' := by
  induction x generalizing before with
  | nil => exact .inl rfl
  | cons c x ih =>
    rw [lowerBetween, lowerBetween]
    have hx := ih (casedFirst before [c])
    by_cases he : c = 'Σ' ∧ before = true ∧ casedFirst false x = false ∧ casedFirst true x = true
    · obtain ⟨rfl, rfl, hf, ht⟩ := he
      have hle := hx.elim (fun h => Nat.le_of_eq (congrArg (List.count 'ς') h)) Nat.le_of_lt
      right
      rw [hf, ht, List.count_append, List.count_append]
      exact Nat.add_lt_add_of_lt_of_le Nat.zero_lt_one hle
    · have hh : (if c = 'Σ' then [if before && !casedFirst true x then 'ς' else 'σ']
          else lowerChar c) =
          if c = 'Σ' then [if before && !casedFirst false x then 'ς' else 'σ'] else lowerChar c := by
        have hm := casedFirst_true (x := x)
        split
        · cases before <;> cases h : casedFirst false x <;> simp_all
        · rfl
      rw [hh, List.append_right_inj, List.count_append, List.count_append,
        Nat.add_lt_add_iff_left]
      exact hx

theorem casedFirst_slash (b : Bool) (x : List Char) : casedFirst b ('/' :: x) = false := by
  have hs : casedFirst (casedFirst b x) ['/'] = false := by
    generalize casedFirst b x = b
    cases b <;> decide +kernel
  rwa [← casedFirst_append] at hs

/-- What stands on one side of a slash does not change the lower case of the other side. -/
theorem lower_append_slash (x y : List Char) :
    lower (x ++ '/' :: y) = lower x ++ '/' :: lower y := by
  have hs : lowerChar '/' = ['/'] := by decide +kernel
  have hb : casedFirst (casedFirst false x.reverse) ['/'] = false := casedFirst_slash _ []
  rw [lower_eq, lower_eq, lower_eq, lowerBetween_append, casedFirst_slash, lowerBetween,
    if_neg (by decide), hs, hb, List.singleton_append]

/-- Whether a text has the same lower case wherever it stands. -/
def IsSteady (x : List Char) : Prop :=
  lower ('a' :: x) = 'a' :: lower x ∧ lower (x ++ ['a']) = lower x ++ ['a']

instance (x : List Char) : Decidable (IsSteady x) := inferInstanceAs (Decidable (_ ∧ _))

theorem casedFirst_letter (b : Bool) : casedFirst b ['a'] = true := by
  cases b <;> decide +kernel

theorem lowerBetween_letter (before behind : Bool) : lowerBetween before behind ['a'] = ['a'] := by
  cases before <;> cases behind <;> decide +kernel

theorem lower_letter_cons (x : List Char) :
    lower ('a' :: x) = 'a' :: lowerBetween true false x := by
  rw [lower_eq, ← List.singleton_append, lowerBetween_append, lowerBetween_letter,
    List.reverse_singleton, casedFirst_letter, List.singleton_append]

theorem lower_append_letter (x : List Char) :
    lower (x ++ ['a']) = lowerBetween false true x ++ ['a'] := by
  rw [lower_eq, lowerBetween_append, lowerBetween_letter, casedFirst_letter]

theorem isSteady_iff :
    IsSteady x ↔ lowerBetween true false x = lower x ∧ lowerBetween false true x = lower x := by
  rw [IsSteady, lower_letter_cons, lower_append_letter, List.cons_inj_right,
    List.append_left_inj]

example : IsSteady "ΑΣΑ".toList ∧ ¬ IsSteady "ΑΣ".toList := by decide +kernel

theorem exists_count_lt (h : ¬ IsSteady x) :
    ∃ y, (y = 'a' :: x ∨ y = x ++ ['a']) ∧
      ∃ c, (c = 'σ' ∨ c = 'ς') ∧ (lower y).count c < (lower x).count c := by
  rw [isSteady_iff, not_and_or] at h
  obtain h | h := h
  · refine ⟨'a' :: x, .inl rfl, 'σ', .inl rfl, ?_⟩
    rw [lower_letter_cons, List.count_cons_of_ne (by decide), lower_eq x]
    rw [lower_eq] at h
    exact (lowerBetween_behind_letter false x).resolve_left h
  · refine ⟨x ++ ['a'], .inr rfl, 'ς', .inr rfl, ?_⟩
    have hn : List.count 'ς' ['a'] = 0 := by decide
    rw [lower_append_letter, List.count_append, hn, Nat.add_zero, lower_eq x]
    rw [lower_eq] at h
    exact (lowerBetween_before_letter false x).resolve_left h

theorem lowerBetween_of_notMem (h : 'Σ' ∉ x) (before behind : Bool) :
    lowerBetween before behind x = x.flatMap lowerChar := by
  induction x generalizing before with
  | nil => rfl
  | cons c x ih =>
    rw [List.mem_cons, not_or] at h
    rw [lowerBetween, if_neg (Ne.symm h.1), ih h.2, List.flatMap_cons]

theorem isSteady_of_notMem (h : 'Σ' ∉ x) : IsSteady x := by
  rw [isSteady_iff, lower_eq]
  simp only [lowerBetween_of_notMem h, and_self]

theorem lowerBetween_letters (hb : lowerBetween true false x = lowerBetween false false x)
    (ha : lowerBetween false true x = lowerBetween false false x) :
    lowerBetween true true x = lowerBetween false false x := by
  induction x with
  | nil => rfl
  | cons c x ih =>
    simp only [lowerBetween, casedFirst_singleton] at hb ha ⊢
    by_cases hc : holds ignorableRanges c
    · have hs : c ≠ 'Σ' := by
        rintro rfl
        exact not_passed_sigma hc
      simp only [if_pos hc, if_neg hs, List.append_right_inj] at hb ha ⊢
      exact ih hb ha
    · by_cases hs : c = 'Σ'
      · subst hs
        -- a last sigma would have changed behind a letter
        have hf : casedFirst false x = true := by
          cases hf : casedFirst false x with
          | true => rfl
          | false => simp [hf] at hb
        simpa [hf, casedFirst_true hf, hc] using ha
      · simp only [if_neg hc, if_neg hs, List.append_right_inj] at hb ha ⊢
        exact ha

theorem IsSteady.lowerBetween_eq (h : IsSteady x) (before behind : Bool) :
    lowerBetween before behind x = lower x := by
  obtain ⟨hb, ha⟩ := isSteady_iff.mp h
  cases before <;> cases behind
  · exact (lower_eq x).symm
  · exact ha
  · exact hb
  · rw [lower_eq] at hb ha ⊢
    exact lowerBetween_letters hb ha

/-- The lower case of a steady text is found wherever the text was. -/
theorem IsSteady.lower_infix (h : IsSteady x) (u v : List Char) :
    lower x <:+: lower (u ++ x ++ v) := by
  rw [lower_eq (u ++ x ++ v), lowerBetween_append, lowerBetween_append, h.lowerBetween_eq]
  exact List.infix_append _ _ _

end EndpointCatalog.Text.Casing
