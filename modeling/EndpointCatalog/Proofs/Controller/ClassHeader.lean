import EndpointCatalog.Proofs.Controller.Written
import EndpointCatalog.Proofs.Pattern.Search
import EndpointCatalog.Proofs.Text.Word

namespace EndpointCatalog.Dialect.Usual

open Pattern Text Text.Search Written

def extendsPart : Pattern := seq (literal "extends") (seq blank (group 2 className))

def afterName : Pattern := seq restOfLine extendsPart

def afterClass : Pattern := seq restOfLine (seq (literal "Controller") afterName)

def afterWord : Pattern := seq restOfLine (seq (literal "class") afterClass)

theorem classHeader_eq : classHeader = seq (char '\n') (seq (group 1 words) afterWord) := rfl

variable {o : Nat} {line tail : List Char} {P : Run → Prop}

theorem firstOnLine_extendsPart (h : ¬ "extends".toList <:+: line) :
    FirstOnLine extendsPart (fun _ => False) o line tail := by
  intro u v huv t ht
  have hp : ¬ "extends".toList <+: v ++ '\n' :: tail := fun hp => by
    have hv := prefix_of_prefix_append_cons (by decide) hp
    exact h (hv.isInfix.trans ⟨u, [], by simp [huv]⟩)
  simp [extendsPart, runs_seq_literal_eq_nil _ _ hp] at ht

theorem firstOnLine_afterWord (h : FirstOnLine afterName P o line tail) :
    FirstOnLine afterWord P o line tail := by
  have hs : CharSet.inLine.contains '\n' = false := rfl
  have hc : '\n' ∉ "Controller".toList := by decide
  have hw : '\n' ∉ "class".toList := by decide
  exact ((h.literal hc).star hs |>.literal hw).star hs

theorem afterWord_runs_eq_nil (h : ¬ "extends".toList <:+: line) (u v : List Char)
    (huv : line = u ++ v) : afterWord.runs ⟨o + u.length, v ++ '\n' :: tail⟩ = [] := by
  have hs : CharSet.inLine.contains '\n' = false := rfl
  have he : FirstOnLine extendsPart (fun _ => False) o line tail := firstOnLine_extendsPart h
  have hf := firstOnLine_afterWord (he.star hs)
  rw [← List.head?_eq_none_iff, Option.eq_none_iff_forall_not_mem]
  exact hf u v huv

theorem mem_stretch_word {b : Cursor} (h : b ∈ stretch .word o (line ++ '\n' :: tail)) :
    ∃ u v, (∀ c ∈ u, Word.isWord c = true) ∧ line = u ++ v ∧
      b = ⟨o + u.length, v ++ '\n' :: tail⟩ := by
  obtain ⟨w, hw, hl, ho⟩ := mem_stretch _ _ h
  have hn : '\n' ∉ w := fun hm => Word.ne_of_isWord (hw _ hm) (by rfl) rfl
  obtain ⟨v, hv⟩ := prefix_of_prefix_append_cons hn ⟨b.rest, hl.symm⟩
  refine ⟨w, v, hw, hv.symm, ?_⟩
  have hr : b.rest = v ++ '\n' :: tail := by
    rw [← hv, List.append_assoc] at hl
    exact (List.append_cancel_left hl).symm
  cases b
  simp_all

theorem classHeader_runs_eq_nil (h : ¬ "extends".toList <:+: line) :
    classHeader.runs ⟨o, '\n' :: (line ++ '\n' :: tail)⟩ = [] := by
  rw [classHeader_eq, runs_seq_char, words, runs_seq_group_star, List.flatMap_eq_nil_iff]
  intro b hb
  obtain ⟨u, v, -, huv, rfl⟩ := mem_stretch_word hb
  rw [afterWord_runs_eq_nil h u v huv]
  rfl

theorem className_contains (c : Char) :
    (CharSet.union .word (.union (.single '|') (.single '\\'))).contains c = true ↔
      Word.isWord c = true ∨ c = '|' ∨ c = '\\' := by
  simp only [CharSet.contains, Bool.or_eq_true, single_contains]

theorem extendsPart_head? (c : Written.Class) (o : Nat) (tail : List Char) :
    (extendsPart.runs ⟨o, "extends".toList ++ ' ' :: (c.base ++ '\n' :: tail)⟩).head? =
      some ⟨⟨o + 8 + c.base.length, '\n' :: tail⟩, [(2, c.base)]⟩ := by
  have hb : ∀ d ∈ c.base, (CharSet.union .word (.union (.single '|') (.single '\\'))).contains d :=
    fun d hd => (className_contains d).mpr ((c.base_isName d hd).imp_right .inr)
  have hr : (seq blank (group 2 className)).runs
        ⟨o + "extends".toList.length, ' ' :: (c.base ++ '\n' :: tail)⟩ =
      (group 2 className).runs ⟨o + 8, c.base ++ '\n' :: tail⟩ := by
    have hs : blank.runs ⟨o + "extends".toList.length, ' ' :: (c.base ++ '\n' :: tail)⟩ =
        [⟨⟨o + 8, c.base ++ '\n' :: tail⟩, []⟩] := rfl
    rw [runs_seq, hs, List.flatMap_singleton, map_andThen_no_groups]
  rw [extendsPart, runs_seq_literal_append, hr]
  exact head?_group_star _ _ _ _ _ hb (by simp; decide)

theorem afterExtends_runs_eq_nil (c : Written.Class) (u v : List Char)
    (huv : "xtends".toList ++ ' ' :: c.base = u ++ v) (o : Nat) (tail : List Char) :
    afterName.runs ⟨o + u.length, v ++ '\n' :: tail⟩ = [] := by
  have hs : CharSet.inLine.contains '\n' = false := rfl
  have hn : ¬ "extends".toList <:+: "xtends".toList ++ ' ' :: c.base := by
    rw [infix_append_cons (by decide), not_or]
    exact ⟨by decide, c.base_extends⟩
  have he : FirstOnLine extendsPart (fun _ => False) o ("xtends".toList ++ ' ' :: c.base) tail :=
    firstOnLine_extendsPart hn
  have hf := he.star hs
  rw [← List.head?_eq_none_iff, Option.eq_none_iff_forall_not_mem]
  exact hf u v huv

/-- The last `extends` of the line decides, and behind it stands the base class. -/
theorem afterName_head? (c : Written.Class) {x : List Char} (hx : '\n' ∉ x) (o : Nat)
    (tail : List Char) :
    (afterName.runs
        ⟨o, x ++ ("extends".toList ++ ' ' :: (c.base ++ '\n' :: tail))⟩).head? =
      some ⟨⟨o + x.length + 8 + c.base.length, '\n' :: tail⟩, [(2, c.base)]⟩ := by
  have hw : ∀ d ∈ x, CharSet.inLine.contains d = true := fun d hd =>
    (inLine_contains d).mpr fun he => hx (he ▸ hd)
  have he : CharSet.inLine.contains 'e' = true := rfl
  have hs : "extends".toList ++ ' ' :: (c.base ++ '\n' :: tail) =
      'e' :: (("xtends".toList ++ ' ' :: c.base) ++ '\n' :: tail) := by
    rw [List.append_assoc]
    rfl
  have hl := afterExtends_runs_eq_nil c [] ("xtends".toList ++ ' ' :: c.base)
    (List.nil_append _).symm (o + x.length + 1) tail
  rw [afterName, restOfLine, runs_seq_star] at hl ⊢
  apply head?_flatMap_stretch _ _ _ _ _ hw
  rw [hs, stretch, if_pos he, List.flatMap_append, List.flatMap_singleton, ← hs]
  rw [List.length_nil, Nat.add_zero] at hl
  rw [hl, List.nil_append, extendsPart_head?]

def headerFront (c : Written.Class) : List Char :=
  (if c.isAbstract then "abstract ".toList else []) ++ "class ".toList ++ c.name ++ [' ']

theorem header_eq (c : Written.Class) :
    c.header = headerFront c ++ ("extends".toList ++ ' ' :: c.base) := by
  have h : " extends ".toList = [' '] ++ "extends".toList ++ [' '] := rfl
  rw [Written.Class.header, headerFront, h]
  generalize "extends".toList = e
  generalize "class ".toList = k
  cases c.isAbstract <;> simp

theorem not_mem_headerFront (c : Written.Class) : '\n' ∉ headerFront c := by
  have hn : '\n' ∉ c.name := fun hm => Word.ne_of_isWord (c.name_isWord _ hm) (by rfl) rfl
  have hk : '\n' ∉ "class ".toList := by decide
  have ha : '\n' ∉ "abstract ".toList := by decide
  rw [headerFront]
  cases c.isAbstract
  · simp only [Bool.false_eq_true, if_false, List.mem_append, hn, hk, List.mem_singleton]
    decide
  · simp only [if_true, List.mem_append, hn, hk, ha, List.mem_singleton]
    decide

theorem not_mem_header (c : Written.Class) : '\n' ∉ c.header := by
  have hb : '\n' ∉ c.base := fun hm => by
    obtain h | h := c.base_isName _ hm
    · exact Word.ne_of_isWord h (by rfl) rfl
    · exact absurd h (by decide)
  have he : '\n' ∉ "extends".toList := by decide
  rw [header_eq, List.mem_append, List.mem_append, List.mem_cons, not_or, not_or, not_or]
  exact ⟨not_mem_headerFront c, he, by decide, hb⟩

theorem isQuiet_header (c : Written.Class) : IsQuiet c.header := by
  have hl : lines c.header = [c.header] := List.splitOn_eq_singleton (not_mem_header c)
  have ha : announces c.header = false := by
    rw [Written.Class.header]
    cases c.isAbstract <;> rfl
  intro l hm
  rw [hl, List.mem_singleton] at hm
  rw [hm, ha]

theorem firstOnLine_afterName (c : Written.Class) (o : Nat) (tail : List Char) :
    FirstOnLine afterName
      (· = ⟨⟨o + c.header.length, '\n' :: tail⟩, [(2, c.base)]⟩) o c.header tail := by
  have hl : c.header.length = (headerFront c).length + 8 + c.base.length := by
    rw [header_eq, List.length_append, List.length_append]
    have h : "extends".toList.length = 7 := rfl
    rw [h, List.length_cons]
    omega
  intro u v huv t ht
  rw [header_eq] at huv
  obtain ⟨x, rfl, hv⟩ | ⟨x, hu, rfl⟩ := List.append_eq_append_iff.mp huv
  · cases x with
    | nil =>
      have h := afterName_head? c (x := []) (by simp) (o + (headerFront c).length) tail
      rw [List.nil_append] at hv h
      rw [← List.cons_append, ← List.append_assoc, hv] at h
      rw [List.append_nil, h, Option.mem_some_iff] at ht
      rw [← ht, hl]
      simp only [List.length_nil, Nat.add_zero, Nat.add_assoc]
    | cons e x =>
      have hx : "xtends".toList ++ ' ' :: c.base = x ++ v := (List.cons_eq_cons.mp hv).2
      have h := afterExtends_runs_eq_nil c x v hx (o + (headerFront c).length + 1) tail
      have ho : o + (headerFront c ++ e :: x).length =
          o + (headerFront c).length + 1 + x.length := by
        simp only [List.length_append, List.length_cons]
        omega
      rw [ho, h] at ht
      cases ht
  · have hx : '\n' ∉ x := fun hm => not_mem_headerFront c (hu ▸ List.mem_append_right _ hm)
    have h := afterName_head? c hx (o + u.length) tail
    rw [List.append_assoc, List.append_assoc, List.cons_append, h, Option.mem_some_iff] at ht
    rw [← ht, hl, hu, List.length_append]
    simp only [Nat.add_assoc]

theorem afterWord_runs_ne_nil (c : Written.Class) {x : List Char} (hx : '\n' ∉ x) (o : Nat)
    (tail : List Char) :
    afterWord.runs ⟨o, x ++ ("class ".toList ++ (c.name ++
      (" extends ".toList ++ (c.base ++ '\n' :: tail))))⟩ ≠ [] := by
  obtain ⟨a, b, hab⟩ := c.name_controller
  have hn : ∀ d ∈ c.name, d ≠ '\n' := fun d hd => Word.ne_of_isWord (c.name_isWord d hd) (by rfl)
  have hk : "class ".toList = "class".toList ++ [' '] := rfl
  have he : " extends ".toList = [' '] ++ ("extends".toList ++ [' ']) := rfl
  have hs : "class ".toList ++ (c.name ++ (" extends ".toList ++ (c.base ++ '\n' :: tail))) =
      "class".toList ++ ((' ' :: a) ++ ("Controller".toList ++
        ((b ++ [' ']) ++ ("extends".toList ++ ' ' :: (c.base ++ '\n' :: tail))))) := by
    rw [hk, he, ← hab]
    generalize "class".toList = k
    generalize "Controller".toList = l
    generalize "extends".toList = e
    simp
  have ha : ∀ d ∈ ' ' :: a, CharSet.inLine.contains d = true := by
    intro d hd
    rw [List.mem_cons] at hd
    obtain rfl | hd := hd
    · rfl
    · exact (inLine_contains d).mpr (hn d (by rw [← hab]; simp [hd]))
  have hb : '\n' ∉ b ++ [' '] := by
    rw [List.mem_append, not_or]
    exact ⟨fun hm => hn '\n' (by rw [← hab]; simp [hm]) rfl, by decide⟩
  have hx' : ∀ d ∈ x, CharSet.inLine.contains d = true := fun d hd =>
    (inLine_contains d).mpr fun he => hx (he ▸ hd)
  -- each stretch of the line can end in front of the word that is sought next
  rw [hs]
  apply runs_seq_star_ne_nil _ _ _ _ _ hx'
  rw [runs_seq_literal_append]
  apply runs_seq_star_ne_nil _ _ _ _ _ ha
  rw [runs_seq_literal_append]
  intro h
  have hf := afterName_head? c hb
    (o + x.length + "class".toList.length + (' ' :: a).length + "Controller".toList.length) tail
  rw [h] at hf
  cases hf

theorem afterWord_head? (c : Written.Class) (o : Nat) (tail u v : List Char)
    (huv : c.header = u ++ v)
    (h : afterWord.runs ⟨o + u.length, v ++ '\n' :: tail⟩ ≠ []) :
    (afterWord.runs ⟨o + u.length, v ++ '\n' :: tail⟩).head? =
      some ⟨⟨o + c.header.length, '\n' :: tail⟩, [(2, c.base)]⟩ := by
  obtain ⟨t, ts, ht⟩ := List.exists_cons_of_ne_nil h
  have hf := firstOnLine_afterWord (firstOnLine_afterName c o tail) u v huv t (by rw [ht]; rfl)
  rw [ht, List.head?_cons, hf]

def wordRuns (o : Nat) (cs : List Char) (b : Cursor) : List Run :=
  (afterWord.runs b).map (Run.andThen ⟨b, [(1, Cursor.upTo ⟨o, cs⟩ b)]⟩)

theorem wordRuns_head? (c : Written.Class) (o : Nat) (tail u v : List Char)
    (huv : c.header = u ++ v)
    (h : afterWord.runs ⟨o + u.length, v ++ '\n' :: tail⟩ ≠ []) :
    (wordRuns o (c.header ++ '\n' :: tail) ⟨o + u.length, v ++ '\n' :: tail⟩).head? =
      some ⟨⟨o + c.header.length, '\n' :: tail⟩, [(2, c.base), (1, u)]⟩ := by
  have hu : Cursor.upTo ⟨o, c.header ++ '\n' :: tail⟩ ⟨o + u.length, v ++ '\n' :: tail⟩ = u := by
    rw [huv, List.append_assoc, upTo_append]
  rw [wordRuns, List.head?_map, afterWord_head? c o tail u v huv h, hu]
  rfl

theorem classHeader_runs (o : Nat) (cs : List Char) :
    classHeader.runs ⟨o, '\n' :: cs⟩ =
      (stretch .word (o + 1) cs).flatMap (wordRuns (o + 1) cs) := by
  rw [classHeader_eq, runs_seq_char, words, runs_seq_group_star]
  rfl

theorem classHeader_head?_of_isAbstract {c : Written.Class} (hc : c.isAbstract = true) (o : Nat)
    (tail : List Char) :
    (classHeader.runs ⟨o, '\n' :: (c.header ++ '\n' :: tail)⟩).head? =
      some ⟨⟨o + 1 + c.header.length, '\n' :: tail⟩, [(2, c.base), (1, "abstract".toList)]⟩ := by
  have ha : "abstract ".toList = "abstract".toList ++ [' '] := rfl
  have hv : c.header = "abstract".toList ++ ([' '] ++ ("class ".toList ++ (c.name ++
      (" extends ".toList ++ c.base)))) := by
    rw [Written.Class.header, hc, if_pos rfl, ha]
    simp only [List.append_assoc]
  have hw : ∀ d ∈ "abstract".toList, CharSet.word.contains d = true :=
    List.all_eq_true.mp (by decide)
  have hb : ∀ d ∈ ([' '] ++ ("class ".toList ++ (c.name ++ (" extends ".toList ++ c.base))) ++
      '\n' :: tail).head?, CharSet.word.contains d = false := by
    intro d hd
    cases hd
    rfl
  have hs := head?_stretch .word (o + 1) _ _ hw hb
  have hn := afterWord_runs_ne_nil c (x := [' ']) (by decide) (o + 1 + "abstract".toList.length)
    tail
  rw [← List.append_assoc, ← hv] at hs
  rw [classHeader_runs]
  apply head?_flatMap_of_head? hs
  apply wordRuns_head? c _ _ _ _ hv
  simpa only [List.append_assoc] using hn

theorem classHeader_head?_of_not_isAbstract {c : Written.Class} (hc : c.isAbstract = false) (o : Nat)
    (tail : List Char) :
    ∃ u, (classHeader.runs ⟨o, '\n' :: (c.header ++ '\n' :: tail)⟩).head? =
        some ⟨⟨o + 1 + c.header.length, '\n' :: tail⟩, [(2, c.base), (1, u)]⟩ ∧
      u <+: "class".toList := by
  have hk : "class ".toList = "class".toList ++ [' '] := rfl
  have hh : c.header = "class ".toList ++ (c.name ++ (" extends ".toList ++ c.base)) := by
    rw [Written.Class.header, hc, if_neg (by decide)]
    simp only [List.append_assoc, List.nil_append]
  have hv : c.header = "class".toList ++ ' ' :: (c.name ++ (" extends ".toList ++ c.base)) := by
    rw [hh, hk, List.append_assoc]
    rfl
  have hn : afterWord.runs ⟨o + 1, c.header ++ '\n' :: tail⟩ ≠ [] := by
    have h := afterWord_runs_ne_nil c (x := []) (by decide) (o + 1) tail
    rw [hh]
    simpa only [List.append_assoc, List.nil_append] using h
  have hne : classHeader.runs ⟨o, '\n' :: (c.header ++ '\n' :: tail)⟩ ≠ [] := by
    rw [classHeader_runs]
    intro h
    have hm := mem_stretch_append .word (o + 1) [] (c.header ++ '\n' :: tail) (by simp)
    have hw := wordRuns_head? c (o + 1) tail [] c.header rfl hn
    rw [List.flatMap_eq_nil_iff.mp h _ hm] at hw
    cases hw
  -- some way exists, and the first one leaves `u` to the first word
  obtain ⟨t, ts, ht⟩ := List.exists_cons_of_ne_nil hne
  have hh? := congrArg List.head? ht
  rw [classHeader_runs] at hh?
  obtain ⟨b, hb, hbt⟩ := exists_of_head?_flatMap hh?
  obtain ⟨u, v, hu, huv, rfl⟩ := mem_stretch_word hb
  have hr : afterWord.runs ⟨o + 1 + u.length, v ++ '\n' :: tail⟩ ≠ [] := by
    intro h
    rw [wordRuns, h] at hbt
    cases hbt
  rw [wordRuns_head? c (o + 1) tail u v huv hr] at hbt
  refine ⟨u, by rw [ht, List.head?_cons, hbt], ?_⟩
  have hs : ' ' ∉ u := fun hm => Word.ne_of_isWord (hu _ hm) (by rfl) rfl
  exact prefix_of_prefix_append_cons hs ⟨v, huv.symm.trans hv⟩

/-- The groups of the header: the class it extends, and its first word, which is `abstract` if the
class is. -/
theorem classHeader_head? (c : Written.Class) (o : Nat) (tail : List Char) :
    ∃ u, (classHeader.runs ⟨o, '\n' :: (c.header ++ '\n' :: tail)⟩).head? =
        some ⟨⟨o + 1 + c.header.length, '\n' :: tail⟩, [(2, c.base), (1, u)]⟩ ∧
      (u == "abstract".toList) = c.isAbstract := by
  cases hc : c.isAbstract with
  | true =>
    exact ⟨_, classHeader_head?_of_isAbstract hc o tail, beq_self_eq_true _⟩
  | false =>
    obtain ⟨u, hu, hp⟩ := classHeader_head?_of_not_isAbstract hc o tail
    refine ⟨u, hu, beq_eq_false_iff_ne.mpr ?_⟩
    rintro rfl
    exact absurd hp.length_le (by decide)

theorem classOf_append (k : Conventions) (c : Written.Class) (tail : List Char) :
    Facts.classOf (ofConventions k) (c.preamble ++ '\n' :: (c.header ++ '\n' :: tail)) =
      (String.ofList (Facts.lastSegment c.base), c.isAbstract) := by
  obtain ⟨u, hu, ha⟩ := classHeader_head? c (0 + c.preamble.length) tail
  have hf := findFrom?_of_head? _ hu
  rw [← findFrom?_append] at hf
  · simp only [Facts.classOf, ofConventions, find?, hf, Match.group?]
    rw [← ha]
    rfl
  · intro x y hxy hy
    obtain ⟨d, y, rfl⟩ := List.exists_cons_of_ne_nil hy
    by_cases hd : d = '\n'
    · subst hd
      obtain ⟨l, ls, hl, -, hz⟩ := exists_first_line y
      obtain ⟨z, hz⟩ := hz (c.header ++ '\n' :: tail)
      have hm : l ∈ lines c.preamble := by
        rw [hxy, lines_append_cons, hl]
        simp
      rw [List.cons_append, hz]
      exact classHeader_runs_eq_nil (c.preamble_extends l hm)
    · exact runs_seq_char_eq_nil _ _ hd _

theorem classOf_text (k : Conventions) (c : Written.Class) :
    Facts.classOf (ofConventions k) c.text =
      (String.ofList (Facts.lastSegment c.base), c.isAbstract) := by
  obtain ⟨tail, ht⟩ : ∃ tail, c.text = c.preamble ++ '\n' :: (c.header ++ '\n' :: tail) :=
    ⟨'{' :: (c.methods.flatMap Method.text ++ ['\n', '}']), by simp [Written.Class.text]⟩
  rw [ht, classOf_append]

end EndpointCatalog.Dialect.Usual
