import EndpointCatalog.Proofs.Text.Search

namespace EndpointCatalog.Text

open Search

/-- The text with a carriage return in front of each break. -/
def withReturns (cs : List Char) : List Char :=
  cs.flatMap fun c => if c = '\n' then ['\r', '\n'] else [c]

namespace Returns

@[simp] theorem withReturns_break (cs : List Char) :
    withReturns ('\n' :: cs) = '\r' :: '\n' :: withReturns cs := rfl

theorem withReturns_cons {c : Char} (hc : c ≠ '\n') (cs : List Char) :
    withReturns (c :: cs) = c :: withReturns cs := by
  rw [withReturns, List.flatMap_cons, if_neg hc]
  rfl

theorem withReturns_append (x y : List Char) :
    withReturns (x ++ y) = withReturns x ++ withReturns y := List.flatMap_append

theorem withReturns_of_notMem {w : List Char} (h : '\n' ∉ w) : withReturns w = w := by
  induction w with
  | nil => rfl
  | cons c w ih =>
    rw [List.mem_cons, not_or] at h
    rw [withReturns_cons (Ne.symm h.1), ih h.2]

theorem length_le_length_withReturns (cs : List Char) :
    cs.length ≤ (withReturns cs).length := by
  induction cs with
  | nil => exact Nat.le_refl _
  | cons c cs ih =>
    by_cases hc : c = '\n'
    · subst hc
      rw [withReturns_break, List.length_cons, List.length_cons, List.length_cons]
      omega
    · rw [withReturns_cons hc, List.length_cons, List.length_cons]
      exact Nat.succ_le_succ ih

variable {w : List Char}

theorem prefix_withReturns_iff (hn : '\n' ∉ w) (hr : '\r' ∉ w) {cs : List Char} :
    w <+: withReturns cs ↔ w <+: cs := by
  constructor
  · intro h
    induction w generalizing cs with
    | nil => exact List.nil_prefix
    | cons d w ih =>
      rw [List.mem_cons, not_or] at hn hr
      cases cs with
      | nil => exact h
      | cons c cs =>
        by_cases hc : c = '\n'
        · subst hc
          exact absurd (List.cons_prefix_cons.mp h).1.symm hr.1
        · rw [withReturns_cons hc, List.cons_prefix_cons] at h
          exact List.cons_prefix_cons.mpr ⟨h.1, ih hn.2 hr.2 h.2⟩
  · rintro ⟨y, rfl⟩
    rw [withReturns_append, withReturns_of_notMem hn]
    exact List.prefix_append _ _

theorem contains_withReturns (hw : w ≠ []) (hn : '\n' ∉ w) (hr : '\r' ∉ w) (cs : List Char) :
    contains w (withReturns cs) = contains w cs := by
  have h0 : contains w [] = false := List.isEmpty_eq_false_iff.mpr hw
  -- An occurrence may begin in front of `cs`, so the induction goes over what precedes it too.
  have h : ∀ u, contains w (u ++ withReturns cs) = contains w (u ++ cs) := by
    induction cs with
    | nil => exact fun _ => rfl
    | cons c cs ih =>
      intro u
      by_cases hc : c = '\n'
      · subst hc
        have hs := contains_append_cons hn [] (withReturns cs)
        rw [h0, Bool.false_or, List.nil_append] at hs
        rw [withReturns_break, contains_append_cons hr, hs, contains_append_cons hn]
        exact congrArg _ (ih [])
      · have hi := ih (u ++ [c])
        rw [List.append_assoc, List.append_assoc] at hi
        rw [withReturns_cons hc]
        exact hi
  exact h []

end Returns

end EndpointCatalog.Text
