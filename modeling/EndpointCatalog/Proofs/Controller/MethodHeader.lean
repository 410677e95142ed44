import EndpointCatalog.Proofs.Controller.Written
import EndpointCatalog.Proofs.Pattern.Search
import EndpointCatalog.Proofs.Text.Word

namespace EndpointCatalog.Dialect.Usual

open Pattern Text Text.Blank Written

def parametersPart : Pattern := seq (char '(') (seq (group 4 restOfLine) (char ')'))

def namePart : Pattern := seq (group 3 (plus true (one .word))) parametersPart

def functionPart : Pattern := seq blanks (seq (literal "function") (seq blanks namePart))

theorem methodHeader_eq :
    methodHeader = group 1 (seq (char '\n') (seq blanks (seq (group 2 visibility) functionPart))) :=
  rfl

theorem visibility_runs {k : List Char} (hk : k ∈ visibilities) (o : Nat) (cs : List Char) :
    visibility.runs ⟨o, k ++ cs⟩ = [⟨⟨o + k.length, cs⟩, []⟩] := by
  have h : ∀ a, visibility.runs a =
      (literal "private").runs a ++ ((literal "public").runs a ++ (literal "protected").runs a) :=
    fun _ => rfl
  rw [h]
  obtain rfl | rfl | rfl := visibility_of_mem hk
  · rw [runs_literal_append, runs_literal_eq_nil, runs_literal_eq_nil] <;> simp
  · rw [runs_literal_append, runs_literal_eq_nil, runs_literal_eq_nil] <;> simp
  · rw [runs_literal_append, runs_literal_eq_nil, runs_literal_eq_nil] <;> simp

theorem visibility_runs_eq_nil {o : Nat} {cs : List Char} (h : ∀ k ∈ visibilities, ¬ k <+: cs) :
    visibility.runs ⟨o, cs⟩ = [] := by
  have hr : visibility.runs ⟨o, cs⟩ = (literal "private").runs ⟨o, cs⟩ ++
      ((literal "public").runs ⟨o, cs⟩ ++ (literal "protected").runs ⟨o, cs⟩) := rfl
  rw [hr, runs_literal_eq_nil, runs_literal_eq_nil, runs_literal_eq_nil]
  · rfl
  · exact h _ (by simp [visibilities])
  · exact h _ (by simp [visibilities])
  · exact h _ (by simp [visibilities])

theorem methodHeader_runs_eq_nil {o : Nat} {cs : List Char}
    (h : ∀ y, cs = '\n' :: y → announces y = false) : methodHeader.runs ⟨o, cs⟩ = [] := by
  rw [methodHeader_eq, runs, List.map_eq_nil_iff]
  cases cs with
  | nil => rfl
  | cons c y =>
    by_cases hc : c = '\n'
    · subst hc
      rw [runs_seq_char]
      cases y with
      | nil => rfl
      | cons d y =>
        rw [blanks, runs_seq_plus]
        by_cases hd : CharSet.blank.contains d
        · rw [if_pos hd, List.flatMap_eq_nil_iff]
          -- a way goes on to a visibility behind the blanks, which would announce a method
          intro b hb
          obtain ⟨w, hw, hy, -⟩ := mem_stretch _ _ hb
          have hn : announces b.rest = false := by
            have ha := h (d :: y) rfl
            have hdw : ∀ c ∈ d :: w, isBlank c = true := List.forall_mem_cons.mpr ⟨hd, hw⟩
            rwa [hy, ← List.cons_append, announces_append hdw] at ha
          have hv : visibility.runs b = [] := by
            apply visibility_runs_eq_nil
            intro k hk hp
            obtain ⟨z, hz⟩ := hp
            rw [← hz, announces_visibility hk] at hn
            cases hn
          simp [runs_seq_group, hv]
        · rw [if_neg hd]
    · exact runs_seq_char_eq_nil _ o hc y

variable {ps left tail : List Char} (hps : '\n' ∉ ps) (hl : ∀ c ∈ left, c ≠ ')' ∧ c ≠ '\n')
  (ht : ∀ c ∈ tail.head?, c = '\n')

include hl ht in
theorem ne_of_append_eq {w rest : List Char} {c : Char} (hw : '\n' ∉ w)
    (h : left ++ tail = w ++ c :: rest) : c ≠ ')' := by
  rintro rfl
  obtain ⟨x, rfl, hx⟩ | ⟨x, rfl, hx⟩ := List.append_eq_append_iff.mp h
  · cases x with
    | nil => exact absurd (ht ')' (by rw [hx]; rfl)) (by decide)
    | cons d x =>
      obtain rfl := ht d (by rw [hx]; rfl)
      exact hw (List.mem_append_right _ List.mem_cons_self)
  · cases x with
    | nil => exact absurd (ht ')' (by rw [← List.nil_append tail, ← hx]; rfl)) (by decide)
    | cons d x =>
      obtain ⟨rfl, -⟩ := List.cons_eq_cons.mp hx
      exact (hl ')' (List.mem_append_right _ List.mem_cons_self)).1 rfl

include hps hl ht in
/-- The parameters go up to the last parenthesis that closes on the line. -/
theorem parametersPart_head? (o : Nat) :
    (parametersPart.runs ⟨o, '(' :: (ps ++ ')' :: (left ++ tail))⟩).head? =
      some ⟨⟨o + 1 + ps.length + 1, left ++ tail⟩, [(4, ps)]⟩ := by
  have hw : ∀ c ∈ ps, CharSet.inLine.contains c = true := fun c hc =>
    (inLine_contains c).mpr fun he => hps (he ▸ hc)
  have hb : CharSet.inLine.contains ')' = true := rfl
  have hd : (char ')').runs ⟨o + 1 + ps.length, ')' :: (left ++ tail)⟩ =
      [⟨⟨o + 1 + ps.length + 1, left ++ tail⟩, []⟩] := rfl
  have hn : (stretch .inLine (o + 1 + ps.length + 1) (left ++ tail)).flatMap (fun b =>
      ((char ')').runs b).map
        (Run.andThen ⟨b, [(4, Cursor.upTo ⟨o + 1, ps ++ ')' :: (left ++ tail)⟩ b)]⟩)) = [] := by
    rw [List.flatMap_eq_nil_iff]
    rintro ⟨p, rest⟩ hm
    obtain ⟨w, hw, hr, -⟩ := mem_stretch _ _ hm
    have hw' : '\n' ∉ w := fun hm => (inLine_contains '\n').mp (hw _ hm) rfl
    cases rest with
    | nil => rfl
    | cons c rest =>
      rw [runs_char_eq_nil _ (ne_of_append_eq hl ht hw' hr)]
      rfl
  rw [parametersPart, runs_seq_char, restOfLine, runs_seq_group_star]
  apply head?_flatMap_stretch _ _ _ _ _ hw
  rw [stretch, if_pos hb, List.flatMap_append, hn, List.nil_append, List.flatMap_singleton, hd,
    List.map_singleton, upTo_append]
  rfl

theorem parametersPart_runs_eq_nil {c : Char} (hc : c ≠ '(') (o : Nat) (cs : List Char) :
    parametersPart.runs ⟨o, c :: cs⟩ = [] :=
  runs_seq_char_eq_nil _ o hc cs

theorem namePart_runs_eq_nil {c : Char} (hc : Word.isWord c = false) (o : Nat) (cs : List Char) :
    namePart.runs ⟨o, c :: cs⟩ = [] := by
  have h : CharSet.word.contains c = false := hc
  rw [namePart, runs_seq_group, runs_plus_one, h]
  rfl

include hps hl ht in
theorem namePart_head? (o : Nat) {name : List Char} (hn : name ≠ [])
    (hw : ∀ c ∈ name, Word.isWord c = true) :
    (namePart.runs ⟨o, name ++ '(' :: (ps ++ ')' :: (left ++ tail))⟩).head? =
      some ⟨⟨o + name.length + 1 + ps.length + 1, left ++ tail⟩, [(4, ps), (3, name)]⟩ := by
  have hq : ∀ o c cs, CharSet.word.contains c = true → parametersPart.runs ⟨o, c :: cs⟩ = [] :=
    fun o c cs hc => parametersPart_runs_eq_nil (Word.ne_of_isWord hc (by rfl)) o cs
  have hb : ∀ c ∈ ('(' :: (ps ++ ')' :: (left ++ tail))).head?, CharSet.word.contains c = false := by
    intro c hc
    rw [List.head?_cons, Option.mem_some_iff] at hc
    subst hc
    rfl
  rw [namePart, runs_seq_group_plus_append _ _ _ _ hq hn hw hb, List.head?_map,
    parametersPart_head? hps hl ht]
  rfl

theorem runs_seq_blanks (q : Pattern) (o : Nat) {w cs : List Char} (hn : w ≠ [])
    (hw : ∀ c ∈ w, isBlank c = true) (hcs : ∀ c ∈ cs.head?, isBlank c = false)
    (hq : ∀ o c cs, isBlank c = true → q.runs ⟨o, c :: cs⟩ = []) :
    (seq blanks q).runs ⟨o, w ++ cs⟩ = q.runs ⟨o + w.length, cs⟩ :=
  runs_seq_plus_append .blank q o hq hn hw hcs

theorem literal_runs_eq_nil {w : String} (q : Pattern) (o : Nat) {c d : Char} {cs ds : List Char}
    (hw : w.toList = d :: ds) (hd : isBlank d = false) (hc : isBlank c = true) :
    (seq (literal w) q).runs ⟨o, c :: cs⟩ = [] := by
  apply runs_seq_literal_eq_nil
  rw [hw, List.cons_prefix_cons]
  rintro ⟨rfl, -⟩
  rw [hc] at hd
  cases hd

include hps hl ht in
theorem functionPart_head? (o : Nat) {name : List Char} (hn : name ≠ [])
    (hw : ∀ c ∈ name, Word.isWord c = true) :
    (functionPart.runs
        ⟨o, functionWord ++ (name ++ '(' :: (ps ++ ')' :: (left ++ tail)))⟩).head? =
      some ⟨⟨o + 10 + name.length + 1 + ps.length + 1, left ++ tail⟩, [(4, ps), (3, name)]⟩ := by
  obtain ⟨d, ds, rfl⟩ := List.exists_cons_of_ne_nil hn
  have hd : isBlank d = false := Word.isBlank_of_isWord (hw d (by simp))
  have hb : ∀ c ∈ [' '], isBlank c = true := by simp [isBlank]
  have hs : functionWord ++ ((d :: ds) ++ '(' :: (ps ++ ')' :: (left ++ tail))) =
      [' '] ++ ("function".toList ++ ([' '] ++ ((d :: ds) ++ '(' :: (ps ++ ')' :: (left ++ tail))))) :=
    rfl
  rw [hs, functionPart, runs_seq_blanks _ _ (by simp) hb (by simp [isBlank]), runs_seq_literal_append,
    runs_seq_blanks _ _ (by simp) hb (by simpa using hd), namePart_head? hps hl ht _ hn hw]
  · rfl
  · intro o c cs hc
    apply namePart_runs_eq_nil
    rw [← Bool.not_eq_true]
    intro hcw
    rw [Word.isBlank_of_isWord hcw] at hc
    cases hc
  · intro o c cs hc
    exact literal_runs_eq_nil _ o (by rfl) (by rfl) hc

include hps hl ht in
/-- The point that a header leads to, and what its groups hold. -/
theorem methodHeader_head? (h : Heading) (o : Nat) {b : List Char} (hb : b ≠ [])
    (hbb : ∀ c ∈ b, isBlank c = true) :
    ∃ g, (methodHeader.runs
        ⟨o, '\n' :: (b ++ (h.text ++ '(' :: (ps ++ ')' :: (left ++ tail))))⟩).head? =
      some ⟨⟨o + 1 + b.length + h.text.length + 1 + ps.length + 1, left ++ tail⟩,
        [(1, g), (4, ps), (3, h.name), (2, h.visibility)]⟩ := by
  have hs : h.text ++ '(' :: (ps ++ ')' :: (left ++ tail)) = h.visibility ++ (functionWord ++
      (h.name ++ '(' :: (ps ++ ')' :: (left ++ tail)))) := by
    simp [Heading.text]
  have hv : ∀ c ∈ (h.visibility ++ (functionWord ++
      (h.name ++ '(' :: (ps ++ ')' :: (left ++ tail))))).head?, isBlank c = false := by
    obtain hk | hk | hk := visibility_of_mem h.visibility_mem <;> simp [hk, isBlank]
  have hq : ∀ o c cs, isBlank c = true →
      (seq (group 2 visibility) functionPart).runs ⟨o, c :: cs⟩ = [] := by
    intro o c cs hc
    have hn : visibility.runs ⟨o, c :: cs⟩ = [] := visibility_runs_eq_nil fun k hk hp => by
      obtain rfl | rfl | rfl := visibility_of_mem hk <;>
        · obtain ⟨rfl, -⟩ := List.cons_prefix_cons.mp hp
          cases hc
    simp [runs_seq_group, hn]
  have hf := functionPart_head? hps hl ht (o + 1 + b.length + h.visibility.length) h.name_ne_nil
    h.name_isWord
  have hn : o + 1 + b.length + h.visibility.length + 10 + h.name.length + 1 + ps.length + 1 =
      o + 1 + b.length + h.text.length + 1 + ps.length + 1 := by
    have hw : functionWord.length = 10 := rfl
    simp only [Heading.text, List.length_append, hw]
    omega
  rw [methodHeader_eq, runs, List.head?_map, hs, runs_seq_char, runs_seq_blanks _ _ hb hbb hv hq,
    runs_seq_group, visibility_runs h.visibility_mem]
  rw [hn] at hf
  simp only [List.flatMap_cons, List.flatMap_nil, List.append_nil, List.head?_map]
  rw [hf, upTo_append]
  exact ⟨_, rfl⟩

end EndpointCatalog.Dialect.Usual
