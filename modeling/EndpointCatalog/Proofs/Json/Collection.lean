import EndpointCatalog.Json.Printer
import EndpointCatalog.Json.Reader
import EndpointCatalog.Proofs.Json.Number

namespace EndpointCatalog.Json

open Number

variable {c close : Char} {cs : List Char}

/-- Whether a text begins with a character that is neither passed over nor a certain bracket. -/
def Opens (bracket : Char) (cs : List Char) : Prop :=
  ∃ c r, cs = c :: r ∧ isBlank c = false ∧ c ≠ bracket

theorem skipBlanks_cons (h : isBlank c = false) (cs : List Char) : skipBlanks (c :: cs) = c :: cs := by
  rw [skipBlanks, List.dropWhile_cons, h, if_neg Bool.false_ne_true]

theorem skipBlanks_of_opens (h : Opens close cs) (rest : List Char) :
    skipBlanks (cs ++ rest) = cs ++ rest := by
  obtain ⟨c, r, rfl, hb, -⟩ := h
  exact skipBlanks_cons hb (r ++ rest)

theorem skipBlanks_newLine (level : Nat) (rest : List Char) :
    skipBlanks (newLine level ++ rest) = skipBlanks rest := by
  have hb : ∀ c ∈ newLine level, isBlank c = true := by
    refine List.forall_mem_cons.mpr ⟨rfl, fun c hc => ?_⟩
    rw [List.eq_of_mem_replicate hc]
    rfl
  exact List.dropWhile_append_of_pos hb

section

variable {α : Type} {part? : Reader α} {w : α → List Char} {x : α} {xs : List α}

/-- Whether a part is read back from what is written for it, whatever follows that does not go on
with a number. -/
def ReadsBack (part? : Reader α) (close : Char) (w : α → List Char) (x : α) : Prop :=
  Opens close (w x) ∧ ∀ rest, Ends rest → part? (w x ++ rest) = some (x, rest)

def lines (level : Nat) (w : α → List Char) (xs : List α) : List Char :=
  xs.flatMap fun x => ',' :: newLine level ++ w x

theorem length_le_lines (level : Nat) (w : α → List Char) (xs : List α) :
    xs.length ≤ (lines level w xs).length := by
  induction xs with
  | nil => exact Nat.zero_le _
  | cons x xs ih =>
    rw [lines, List.flatMap_cons, List.length_append, ← lines, List.length_cons]
    simp only [List.cons_append, List.length_cons]
    omega

theorem parts?_lines (hc : close = ']' ∨ close = '}')
    (h : ∀ y ∈ x :: xs, ReadsBack part? close w y) (outer level : Nat) {n : Nat}
    (hn : xs.length < n) (rest : List Char) :
    parts? part? close n (newLine level ++ (w x ++ (lines level w xs ++
      (newLine outer ++ close :: rest)))) = some (x :: xs, rest) := by
  have hb : isBlank close = false := by obtain rfl | rfl := hc <;> rfl
  have hk : ',' ≠ close := by obtain rfl | rfl := hc <;> decide
  -- on the parts behind the first; each takes one step of the bound
  induction xs generalizing x n with
  | nil =>
    obtain ⟨n, rfl⟩ := Nat.exists_eq_succ_of_ne_zero (Nat.ne_zero_of_lt hn)
    obtain ⟨ho, hr⟩ := h x List.mem_cons_self
    have he : Ends (newLine outer ++ close :: rest) := by
      rintro c ⟨⟩
      decide
    rw [parts?, skipBlanks_newLine, skipBlanks_of_opens ho, lines, List.flatMap_nil,
      List.nil_append, hr _ he]
    dsimp only [bind, Option.bind_some]
    rw [skipBlanks_newLine, skipBlanks_cons hb]
    exact if_pos rfl
  | cons y ys ih =>
    obtain ⟨n, rfl⟩ := Nat.exists_eq_succ_of_ne_zero (Nat.ne_zero_of_lt hn)
    obtain ⟨⟨ho, hr⟩, h⟩ := List.forall_mem_cons.mp h
    have hl : lines level w (y :: ys) ++ (newLine outer ++ close :: rest) =
        ',' :: (newLine level ++ (w y ++ (lines level w ys ++ (newLine outer ++ close :: rest)))) := by
      simp only [lines, List.flatMap_cons, List.append_assoc, List.cons_append]
    have he : Ends (lines level w (y :: ys) ++ (newLine outer ++ close :: rest)) := by
      rw [hl]
      rintro c ⟨⟩
      decide
    have hi := ih h (Nat.lt_of_succ_lt_succ hn)
    rw [parts?, skipBlanks_newLine, skipBlanks_of_opens ho, hr _ he]
    dsimp only [bind, Option.bind_some]
    rw [hl, skipBlanks_cons (by rfl)]
    dsimp only
    rw [if_neg hk, if_pos rfl, hi]
    rfl

theorem collection?_lines (hc : close = ']' ∨ close = '}')
    (h : ∀ y ∈ x :: xs, ReadsBack part? close w y) (outer level : Nat) (rest : List Char) :
    collection? part? close (newLine level ++ (w x ++ (lines level w xs ++
      (newLine outer ++ close :: rest)))) = some (x :: xs, rest) := by
  obtain ⟨ho, -⟩ := h x List.mem_cons_self
  rw [collection?, skipBlanks_newLine, skipBlanks_of_opens ho, if_neg]
  · apply parts?_lines hc h
    have hl := length_le_lines level w xs
    simp only [List.length_append, List.length_cons]
    omega
  · obtain ⟨c, r, hw, -, hn⟩ := ho
    rw [hw]
    exact fun he => hn (Option.some.inj he)

end

end EndpointCatalog.Json
