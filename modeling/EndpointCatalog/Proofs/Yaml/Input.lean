import EndpointCatalog.Yaml.Quoted

namespace EndpointCatalog.Yaml

open Quoted

theorem eq_space_of_isBlank {c : Char} (hp : isPrintable c = true) (hb : isBlank c = true) :
    c = ' ' := by
  simp only [isBlank, Bool.or_eq_true, beq_iff_eq] at hb
  obtain rfl | rfl := hb
  · rfl
  · exact absurd hp (by decide)

theorem isBreak_iff {c : Char} :
    isBreak c = true ↔
      c = '\n' ∨ c = '\r' ∨ c = '\x85' ∨ c = '\u2028' ∨ c = '\u2029' := by
  simp [isBreak, or_assoc]

theorem ne_of_isBreak_eq_false {c d : Char} (hc : isBreak c = false) (hd : isBreak d = true) :
    c ≠ d := by
  rintro rfl
  rw [hc] at hd
  cases hd

theorem breakOf_of_isPrintable {c : Char} (hp : isPrintable c = true) (hb : isBreak c = true) :
    breakOf c = c := by
  obtain rfl | rfl | rfl | rfl | rfl := isBreak_iff.mp hb
  · rfl
  · exact absurd hp (by decide)
  · exact absurd hp (by decide)
  · rfl
  · rfl

theorem isBlank_of_isBreak {c : Char} (hb : isBreak c = true) : isBlank c = false := by
  obtain rfl | rfl | rfl | rfl | rfl := isBreak_iff.mp hb <;> rfl

theorem atReturn_of_isPrintable {c : Char} (hp : isPrintable c = true) (cs : List Char) :
    atReturn c cs = false := by
  have hc : (c == '\r') = false := by
    rw [beq_eq_false_iff_ne]
    rintro rfl
    exact absurd hp (by decide)
  rw [atReturn, hc, Bool.false_and]

theorem atReturn_of_isBreak_eq_false {c : Char} (hb : isBreak c = false) (cs : List Char) :
    atReturn c cs = false := by
  have hc : (c == '\r') = false := by
    rw [beq_eq_false_iff_ne]
    exact ne_of_isBreak_eq_false hb rfl
  rw [atReturn, hc, Bool.false_and]

theorem atGap_of_isPrintable {c : Char} (hp : isPrintable c = true) (hb : isBreak c = false)
    (hc : c ≠ ' ') (cs : List Char) : atGap (c :: cs) = false := by
  have hs : isBlank c = false := by
    rw [← Bool.not_eq_true]
    intro h
    exact hc (eq_space_of_isBlank hp h)
  rw [atGap, hs, hb, Bool.or_false]

/-- Whether a text starts with something that is neither white space nor a comment. -/
def startsLine (cs : List Char) : Prop := ∀ c ∈ cs.head?, c.isAlpha = true ∨ c = '-'

theorem isBlank_isBreak_of_startsLine {c : Char} {cs : List Char} (h : startsLine (c :: cs)) :
    isBlank c = false ∧ isBreak c = false := by
  have hc : c.isAlpha = true ∨ c = '-' := h c (by simp)
  constructor <;> rw [← Bool.not_eq_true]
  · intro hb
    simp only [isBlank, Bool.or_eq_true, beq_iff_eq] at hb
    obtain rfl | rfl := hb <;> exact absurd hc (by decide)
  · intro hb
    obtain rfl | rfl | rfl | rfl | rfl := isBreak_iff.mp hb <;> exact absurd hc (by decide)

theorem spaces_zero : spaces 0 = [] := rfl

theorem spaces_succ (k : Nat) : spaces (k + 1) = ' ' :: spaces k := rfl

namespace Mark

theorem nextBy_nextBy (m : Mark) (a b : Nat) : (m.nextBy a).nextBy b = m.nextBy (a + b) := by
  simp [nextBy, Nat.add_assoc]

theorem next_eq (m : Mark) : m.next = m.nextBy 1 := rfl

theorem next_nextBy (m : Mark) (n : Nat) : m.next.nextBy n = m.nextBy (n + 1) := by
  rw [next_eq, nextBy_nextBy, Nat.add_comm]

theorem nextBy_zero (m : Mark) : m.nextBy 0 = m := rfl

end Mark

end EndpointCatalog.Yaml
