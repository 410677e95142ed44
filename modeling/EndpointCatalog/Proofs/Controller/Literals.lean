import EndpointCatalog.Proofs.Controller.Parameters

namespace EndpointCatalog

open Text Text.Blank Text.Search

namespace Controller.Parameter

variable {n : Nesting} {c : Char} {v w : List Char}

/-- Only the two quotes begin a quotation. -/
def Nesting.IsProper (n : Nesting) : Prop := ∀ q ∈ n.quote?, q = '\'' ∨ q = '"'

theorem Nesting.isProper_of_eq_none (h : n.quote? = none) : n.IsProper := by
  intro q hq
  rw [h] at hq
  cases hq

theorem Nesting.IsProper.step (h : n.IsProper) (c : Char) : (n.step c).IsProper := by
  obtain ⟨_ | q, depth⟩ := n
  · rw [Nesting.step]
    dsimp only
    split
    · rename_i hc
      exact fun q hq => Option.some.inj hq ▸ hc
    split
    · exact isProper_of_eq_none rfl
    split <;> exact isProper_of_eq_none rfl
  · rw [Nesting.step]
    dsimp only
    split
    · exact isProper_of_eq_none rfl
    · exact h

theorem Nesting.IsProper.foldl (h : n.IsProper) (w : List Char) :
    (w.foldl Nesting.step n).IsProper := by
  induction w generalizing n with
  | nil => exact h
  | cons c w ih => exact ih (h.step c)

/-- Commas do not cut, and plain characters do not end, what has been begun. -/
theorem crosses_begun (h : n.IsProper) (ht : n.atTop = false)
    (hw : ∀ c ∈ w, isPlain c = true ∨ c = ',') : Crosses n w n := by
  have hs : ∀ c ∈ w, n.step c = n := fun c hc => by
    obtain ⟨_ | q, depth⟩ := n
    · obtain hp | rfl := hw c hc
      · exact step_plain hp
      · rfl
    · refine step_inside ?_
      rintro rfl
      obtain rfl | rfl := h _ rfl
      all_goals
        revert hc
        exact fun hc => absurd (hw _ hc) (by decide)
  clear hw
  induction w with
  | nil => exact .refl n
  | cons c w ih =>
    obtain ⟨hc, hw⟩ := List.forall_mem_cons.mp hs
    refine .cons (by rw [ht, Bool.false_and]) ?_
    rw [hc]
    exact ih hw

theorem length_names_begun_le (h : (w.foldl Nesting.step {}).atTop = false)
    (hv : ∀ c ∈ v, isPlain c = true ∨ c = ',') :
    (names (w ++ v)).length ≤ (split w).length := by
  obtain ⟨ps, x, hs, hr⟩ := splitFrom_append {} w
  have hn : Nesting.IsProper {} := Nesting.isProper_of_eq_none rfl
  have hc := crosses_begun (hn.foldl w) h hv []
  rw [List.append_nil] at hc
  have hg : glue x (glue v (splitFrom (w.foldl Nesting.step {}) [])) = [x ++ (v ++ [])] := rfl
  rw [names_eq, split, split, hr, hc, hg, hs]
  exact Nat.le_trans (List.length_filterMap_le _ _) (by simp)

theorem nameOf?_append_default (x d : List Char) : nameOf? (x ++ '=' :: d) = nameOf? x := by
  have ht : (x ++ '=' :: d).takeWhile (· ≠ '=') = x.takeWhile (· ≠ '=') := by
    induction x with
    | nil => rfl
    | cons c x ih => rw [List.cons_append, List.takeWhile_cons, ih, List.takeWhile_cons]
  rw [nameOf?, nameOf?, ht]

end Controller.Parameter

namespace Written

open Controller.Parameter

/-- What can stand between the quotes of a literal: a backslash goes with the character behind it,
and no other quote of the same kind is there. -/
inductive IsQuoted (q : Char) : List Char → Prop
  | nil : IsQuoted q []
  | escape (c : Char) {w : List Char} (hw : IsQuoted q w) : IsQuoted q ('\\' :: c :: w)
  | plain {c : Char} {w : List Char} (hq : c ≠ q) (hb : c ≠ '\\') (hw : IsQuoted q w) :
      IsQuoted q (c :: w)

structure Literal where
  quote : Char
  body : List Char
  isQuote : quote = '\'' ∨ quote = '"'
  body_isQuoted : IsQuoted quote body

def Literal.text (l : Literal) : List Char := l.quote :: l.body ++ [l.quote]

namespace Parameter

def withDefault (p : Parameter) (d : List Char) : List Char :=
  p.front ++ p.word ++ p.gap ++ '=' :: ' ' :: d

/-- A list of parameters, one of which has the default `d`. -/
def listWith (ps : List Parameter) (p : Parameter) (d : List Char) (qs : List Parameter) :
    List Char :=
  [','].intercalate (ps.map text ++ p.withDefault d :: qs.map text)

variable (p : Parameter) (d : List Char)

theorem foldl_withDefault : (p.withDefault d).foldl Nesting.step {} = d.foldl Nesting.step {} := by
  have hs : ∀ w : List Char, (∀ c ∈ w, isNamed c = true) → w.foldl Nesting.step {} = {} := by
    intro w hw
    induction w with
    | nil => rfl
    | cons c w ih =>
      obtain ⟨hc, hw⟩ := List.forall_mem_cons.mp hw
      rw [List.foldl_cons, step_plain (isNamed_iff.mp hc).1]
      exact ih hw
  rw [withDefault, List.foldl_append, hs _ p.declaration_isNamed]
  rfl

/-- In front of the default stands the name of the parameter, and what is cut off the default may
give others. -/
theorem names_withDefault :
    names (p.withDefault d) = p.name :: (split d).tail.filterMap nameOf? := by
  have hp : ∀ c ∈ p.front ++ p.word ++ p.gap ++ ['=', ' '], isPlain c = true := by
    refine List.forall_mem_append.mpr ⟨fun c hc => ?_, List.all_eq_true.mp (by decide)⟩
    exact (isNamed_iff.mp (p.declaration_isNamed c hc)).1
  have hs : split (p.withDefault d) = glue (p.front ++ p.word ++ p.gap ++ ['=', ' ']) (split d) := by
    have hc := crosses_of_isPlain (d := 0) hp d
    rwa [List.append_assoc] at hc
  have hn : nameOf? (p.front ++ p.word ++ p.gap) = some p.name := by
    have h := nameOf?_text { p with default? := none, default_isMaterial := nofun }
    rwa [text, Option.elim_none, List.append_nil] at h
  obtain ⟨x, xs, hx⟩ := List.exists_cons_of_ne_nil (splitFrom_ne_nil {} d)
  have hx' : split d = x :: xs := hx
  have hw : p.front ++ p.word ++ p.gap ++ ['=', ' '] ++ x =
      p.front ++ p.word ++ p.gap ++ '=' :: ' ' :: x := List.append_assoc _ _ _
  rw [names_eq, hs, hx', glue, hw, List.filterMap_cons, nameOf?_append_default, hn]
  rfl

theorem names_listWith_cons (q : Parameter) (ps qs : List Parameter) :
    names (listWith (q :: ps) p d qs) = q.name :: names (listWith ps p d qs) := by
  have hl : listWith (q :: ps) p d qs = q.text ++ ',' :: listWith ps p d qs := by
    rw [listWith, List.map_cons, List.cons_append, List.intercalate_cons_of_ne_nil (by simp)]
    simp [listWith]
  rw [hl, names_eq, q.crosses_text.split_append_comma, List.filterMap_cons, nameOf?_text, ← names_eq]

theorem listWith_nil (qs : List Parameter) :
    listWith [] p d qs = p.withDefault d ++ qs.flatMap (',' :: ·.text) := by
  rw [listWith, List.map_nil, List.nil_append, intercalate_cons_eq_flatMap, List.flatMap_map]

theorem names_listWith (h : d.foldl Nesting.step {} = {}) (ps qs : List Parameter) :
    names (listWith ps p d qs) =
      ps.map (·.name) ++ p.name :: (split d).tail.filterMap nameOf? ++ qs.map (·.name) := by
  induction ps with
  | cons q ps ih => rw [names_listWith_cons, ih, List.map_cons, List.cons_append, List.cons_append]
  | nil =>
    have ht : (p.withDefault d).foldl Nesting.step {} = {} := (p.foldl_withDefault d).trans h
    rw [listWith_nil, List.map_nil, List.nil_append, ← names_withDefault]
    cases qs with
    | nil => rw [List.flatMap_nil, List.append_nil, List.map_nil, List.append_nil]
    | cons q qs =>
      have hq : (q :: qs).flatMap (',' :: ·.text) = ',' :: listText (q :: qs) false := by
        rw [listText, List.map_cons, intercalate_cons_eq_flatMap, List.flatMap_cons,
          List.flatMap_map]
        simp
      rw [hq, names_append_comma ht, names_listText]

def plain : Parameter where
  indent := []
  type? := none
  isReference := false
  isVariadic := false
  name := ['a']
  gap := []
  default? := none
  indent_isBlank := nofun
  type_isNamed := nofun
  type_isBlank := nofun
  name_ne_nil := List.cons_ne_nil _ _
  name_isNamed := List.forall_mem_singleton.mpr (by decide)
  name_notBlank := List.forall_mem_singleton.mpr (by decide)
  name_dollar := by decide
  gap_isBlank := nofun
  default_isMaterial := nofun

/-- A default that is left inside of a quotation or a bracket swallows parameters. -/
theorem exists_names_listWith_ne (h : d.foldl Nesting.step {} ≠ {}) :
    ∃ qs, names (listWith [] plain d qs) ≠ plain.name :: qs.map (·.name) := by
  let k := (split (plain.withDefault d)).length
  refine ⟨List.replicate k plain, fun he => ?_⟩
  have ht : ((plain.withDefault d).foldl Nesting.step {}).atTop = false := by
    rw [foldl_withDefault]
    refine Bool.eq_false_iff.mpr fun ht => h ?_
    obtain ⟨hq, hd⟩ := Bool.and_eq_true_iff.mp ht
    generalize d.foldl Nesting.step {} = n at hq hd
    obtain ⟨quote?, depth⟩ := n
    obtain rfl := eq_of_beq hq
    obtain rfl := eq_of_beq hd
    rfl
  have hv : ∀ c ∈ (List.replicate k plain).flatMap (',' :: ·.text), isPlain c = true ∨ c = ',' := by
    intro c hc
    obtain ⟨q, hq, hc⟩ := List.mem_flatMap.mp hc
    obtain rfl := List.eq_of_mem_replicate hq
    have hp : ∀ c ∈ plain.text, isPlain c = true := List.all_eq_true.mp (by decide)
    exact (List.mem_cons.mp hc).symm.imp_left (hp c)
  have hl := length_names_begun_le ht hv
  rw [← listWith_nil, he, List.length_cons, List.length_map, List.length_replicate] at hl
  exact absurd hl (Nat.not_succ_le_self k)

end Parameter

/-- A literal can stand in for `null` in every list exactly if the reader, to whom a backslash means
nothing, leaves it outside of quotations and brackets and finds no name behind its commas. -/
theorem parse_literal_eq_iff (l : Literal) :
    (∀ ps p qs, parse (String.ofList (Parameter.listWith ps p l.text qs)) =
        parse (String.ofList (Parameter.listWith ps p "null".toList qs))) ↔
      l.text.foldl Nesting.step {} = {} ∧ ∀ w ∈ (split l.text).tail, nameOf? w = none := by
  have hnull : ∀ ps p qs, names (Parameter.listWith ps p "null".toList qs) =
      ps.map (·.name) ++ p.name :: qs.map (·.name) := fun ps p qs => by
    rw [Parameter.names_listWith p "null".toList (by decide), List.append_assoc]
    rfl
  have hparse : ∀ x y : List Char,
      parse (String.ofList x) = parse (String.ofList y) ↔ names x = names y := fun x y => by
    rw [parse, parse, String.toList_ofList, String.toList_ofList]
    exact List.map_inj_right fun _ _ => String.ofList_inj.mp
  simp only [hparse, hnull]
  constructor
  · intro h
    have ht : l.text.foldl Nesting.step {} = {} := Decidable.byContradiction fun ht => by
      obtain ⟨qs, hqs⟩ := Parameter.exists_names_listWith_ne l.text ht
      exact hqs (h [] .plain qs)
    have hp := h [] .plain []
    rw [Parameter.names_listWith _ _ ht] at hp
    exact ⟨ht, List.filterMap_eq_nil_iff.mp (by simpa using hp)⟩
  · rintro ⟨ht, hn⟩ ps p qs
    rw [Parameter.names_listWith p l.text ht, List.filterMap_eq_nil_iff.mpr hn, List.append_assoc]
    rfl

/-- An escaped quote swallows the parameter behind the literal. -/
theorem parse_escaped_quote_ne : parse "$a = 'it\\'s', $b" ≠ parse "$a = null, $b" := by decide

end Written

end EndpointCatalog
