import EndpointCatalog.Controller.Parameter
import EndpointCatalog.Proofs.Text.Blank

namespace EndpointCatalog.Controller.Parameter

open Text.Blank

variable {n m l : Nesting} {v w : List Char} {d : Nat} {o c q : Char}

theorem Nesting.atTop_iff : n.atTop = true ↔ n = {} := by
  obtain ⟨q, d⟩ := n
  rw [Nesting.atTop, Bool.and_eq_true, beq_iff_eq, beq_iff_eq, Nesting.mk.injEq]

def glue (w : List Char) : List (List Char) → List (List Char)
  | [] => [w]
  | p :: ps => (w ++ p) :: ps

theorem glue_nil {ps : List (List Char)} (h : ps ≠ []) : glue [] ps = ps := by
  obtain ⟨p, ps, rfl⟩ := List.exists_cons_of_ne_nil h
  rfl

theorem glue_glue (v w : List Char) (ps : List (List Char)) :
    glue v (glue w ps) = glue (v ++ w) ps := by
  cases ps with
  | nil => rfl
  | cons p ps => rw [glue, glue, glue, List.append_assoc]

theorem splitFrom_cons (h : (n.atTop && c == ',') = false) (cs : List Char) :
    splitFrom n (c :: cs) = glue [c] (splitFrom (n.step c) cs) := by
  rw [splitFrom, if_neg (Bool.eq_false_iff.mp h)]
  cases splitFrom (n.step c) cs <;> rfl

theorem splitFrom_ne_nil (n : Nesting) (cs : List Char) : splitFrom n cs ≠ [] := by
  cases cs with
  | nil => exact List.cons_ne_nil _ _
  | cons c cs =>
    cases h : n.atTop && c == ',' with
    | true =>
      rw [splitFrom, if_pos h]
      exact List.cons_ne_nil _ _
    | false =>
      rw [splitFrom_cons h]
      cases splitFrom (n.step c) cs <;> exact List.cons_ne_nil _ _

/-- Whether a text has no cut for a reader that comes to it at `n`, and the reader leaves it
at `m`. -/
def Crosses (n : Nesting) (w : List Char) (m : Nesting) : Prop :=
  ∀ rest, splitFrom n (w ++ rest) = glue w (splitFrom m rest)

theorem Crosses.refl (n : Nesting) : Crosses n [] n := fun rest =>
  (glue_nil (splitFrom_ne_nil n rest)).symm

theorem Crosses.trans (hv : Crosses n v m) (hw : Crosses m w l) : Crosses n (v ++ w) l := by
  intro rest
  rw [List.append_assoc, hv, hw, glue_glue]

theorem crosses_singleton (h : (n.atTop && c == ',') = false) : Crosses n [c] (n.step c) :=
  splitFrom_cons h

theorem Crosses.cons (h : (n.atTop && c == ',') = false) (hw : Crosses (n.step c) w m) :
    Crosses n (c :: w) m :=
  (crosses_singleton h).trans hw

theorem Crosses.split_eq (h : Crosses {} w m) : split w = [w] := by
  have hs := h []
  rw [List.append_nil] at hs
  rw [split, hs]
  exact congrArg (· :: []) (List.append_nil w)

theorem Crosses.split_append_comma (h : Crosses {} w {}) (cs : List Char) :
    split (w ++ ',' :: cs) = w :: split cs := by
  have hs := h (',' :: cs)
  rw [split, hs]
  show (w ++ []) :: split cs = _
  rw [List.append_nil]

/-- The characters that neither open nor close anything and do not separate parameters. -/
def isPlain (c : Char) : Bool := !List.contains ['\'', '"', '(', ')', '[', ']', ','] c

theorem ne_of_isPlain {e : Char} (h : isPlain c = true) (he : isPlain e = false) : c ≠ e := by
  rintro rfl
  rw [h] at he
  cases he

theorem step_plain (h : isPlain c = true) : Nesting.step ⟨none, d⟩ c = ⟨none, d⟩ := by
  have hn : ∀ {e : Char}, isPlain e = false → c ≠ e := ne_of_isPlain h
  simp [Nesting.step, hn (e := '\'') (by rfl), hn (e := '"') (by rfl), hn (e := '(') (by rfl),
    hn (e := ')') (by rfl), hn (e := '[') (by rfl), hn (e := ']') (by rfl)]

theorem step_quote (hq : q = '\'' ∨ q = '"') : Nesting.step ⟨none, d⟩ q = ⟨some q, d⟩ := if_pos hq

theorem step_inside (h : c ≠ q) : Nesting.step ⟨some q, d⟩ c = ⟨some q, d⟩ := if_neg h

theorem step_unquote : Nesting.step ⟨some q, d⟩ q = ⟨none, d⟩ := if_pos rfl

theorem crosses_plain (h : isPlain c = true) : Crosses ⟨none, d⟩ [c] ⟨none, d⟩ := by
  have hc : (c == ',') = false := beq_eq_false_iff_ne.mpr (ne_of_isPlain h (by rfl))
  have hs := crosses_singleton (n := ⟨none, d⟩) (by rw [hc, Bool.and_false])
  rwa [step_plain h] at hs

theorem crosses_of_isPlain (hw : ∀ c ∈ w, isPlain c = true) :
    Crosses ⟨none, d⟩ w ⟨none, d⟩ := by
  induction w with
  | nil => exact .refl _
  | cons c w ih =>
    obtain ⟨hc, hw⟩ := List.forall_mem_cons.mp hw
    exact (crosses_plain hc).trans (ih hw)

theorem crosses_inside (hw : q ∉ w) : Crosses ⟨some q, d⟩ w ⟨some q, d⟩ := by
  induction w with
  | nil => exact .refl _
  | cons c w ih =>
    rw [List.mem_cons, not_or] at hw
    refine .cons rfl ?_
    rw [step_inside (Ne.symm hw.1)]
    exact ih hw.2

theorem crosses_quoted (hq : q = '\'' ∨ q = '"') (hw : q ∉ w) :
    Crosses ⟨none, d⟩ (q :: w ++ [q]) ⟨none, d⟩ := by
  have hc : (q == ',') = false := by obtain rfl | rfl := hq <;> rfl
  have hs := crosses_singleton (n := ⟨some q, d⟩) (c := q) rfl
  rw [step_unquote] at hs
  refine .cons (by rw [hc, Bool.and_false]) ?_
  rw [step_quote hq]
  exact (crosses_inside hw).trans hs

theorem crosses_group (h : (o, c) ∈ [('(', ')'), ('[', ']')])
    (hw : Crosses ⟨none, d + 1⟩ w ⟨none, d + 1⟩) :
    Crosses ⟨none, d⟩ (o :: w ++ [c]) ⟨none, d⟩ := by
  obtain ⟨rfl, rfl⟩ | ⟨rfl, rfl⟩ : o = '(' ∧ c = ')' ∨ o = '[' ∧ c = ']' := by simpa using h
  all_goals exact .cons (Bool.and_false _) (hw.trans (crosses_singleton rfl))

theorem isPlain_of_isBlank (h : isBlank c = true) : isPlain c = true := by
  rw [isPlain, Bool.not_eq_true', ← Bool.not_eq_true, List.contains_iff_mem]
  intro hm
  have hb : (['\'', '"', '(', ')', '[', ']', ','].all (!isBlank ·)) = true := by decide
  have hn := List.all_eq_true.mp hb c hm
  rw [h] at hn
  cases hn

theorem nameOf?_of_isBlank (hw : ∀ c ∈ w, isBlank c = true) : nameOf? w = none := by
  have ht : ∀ c ∈ w.takeWhile (· ≠ '='), isBlank c = true := fun c hc =>
    hw c ((List.takeWhile_prefix _).subset hc)
  have hn := words_append_blanks [] ht
  rw [nameOf?, words_trim, ← List.nil_append (w.takeWhile _), hn]
  rfl

/-- A blank list needs no exception: it is one piece without a name. -/
theorem names_eq (cs : List Char) : names cs = (split cs).filterMap nameOf? := by
  rw [names]
  split
  · rename_i h
    have hb := List.all_eq_true.mp h
    have hs := (crosses_of_isPlain (d := 0) fun c hc => isPlain_of_isBlank (hb c hc)).split_eq
    rw [hs, List.filterMap_cons_none (nameOf?_of_isBlank hb)]
    rfl
  · rfl

/-- A text is cut by itself, and only its last piece goes on in what follows. -/
theorem splitFrom_append (n : Nesting) (w : List Char) :
    ∃ ps x, splitFrom n w = ps ++ [x] ∧
      ∀ rest, splitFrom n (w ++ rest) = ps ++ glue x (splitFrom (w.foldl Nesting.step n) rest) := by
  induction w generalizing n with
  | nil => exact ⟨[], [], rfl, Crosses.refl n⟩
  | cons c w ih =>
    cases h : n.atTop && c == ',' with
    | true =>
      obtain ⟨ht, hc⟩ := Bool.and_eq_true_iff.mp h
      obtain rfl := eq_of_beq hc
      have hn : n.step ',' = n := by
        rw [Nesting.atTop_iff.mp ht]
        rfl
      obtain ⟨ps, x, hs, hr⟩ := ih n
      refine ⟨[] :: ps, x, ?_, fun rest => ?_⟩
      · rw [splitFrom, if_pos h, hs, List.cons_append]
      · rw [List.cons_append, splitFrom, if_pos h, hr, List.foldl_cons, hn, List.cons_append]
    | false =>
      -- the character goes to the first piece, which may be the last one as well
      obtain ⟨ps, x, hs, hr⟩ := ih (n.step c)
      cases ps with
      | nil =>
        refine ⟨[], c :: x, ?_, fun rest => ?_⟩
        · rw [splitFrom_cons h, hs]
          rfl
        · rw [List.cons_append, splitFrom_cons h, hr, List.nil_append, glue_glue]
          rfl
      | cons p ps =>
        refine ⟨(c :: p) :: ps, x, ?_, fun rest => ?_⟩
        · rw [splitFrom_cons h, hs]
          rfl
        · rw [List.cons_append, splitFrom_cons h, hr]
          rfl

theorem names_append_comma (h : w.foldl Nesting.step {} = {}) (rest : List Char) :
    names (w ++ ',' :: rest) = names w ++ names rest := by
  obtain ⟨ps, x, hs, hr⟩ := splitFrom_append {} w
  have hc : glue x (splitFrom {} (',' :: rest)) = [x] ++ split rest :=
    congrArg (· :: split rest) (List.append_nil x)
  rw [names_eq, names_eq, names_eq, split, split, hr, h, hc, hs, ← List.filterMap_append,
    List.append_assoc]

end EndpointCatalog.Controller.Parameter
