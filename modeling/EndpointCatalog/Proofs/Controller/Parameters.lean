import EndpointCatalog.Proofs.Controller.Nesting

namespace EndpointCatalog

open Text Text.Blank Text.Search

namespace Written

open Controller.Parameter

/-- The texts that a default can be: characters without a meaning of their own, quotations, and
brackets around more of this. Only inside of brackets it may have commas. -/
inductive IsMaterial : Bool → List Char → Prop
  | nil (inner : Bool) : IsMaterial inner []
  | plain {inner : Bool} {c : Char} {w : List Char} (hc : isPlain c = true)
      (hw : IsMaterial inner w) : IsMaterial inner (c :: w)
  | comma {w : List Char} (hw : IsMaterial true w) : IsMaterial true (',' :: w)
  | quoted {inner : Bool} {q : Char} {v w : List Char} (hq : q = '\'' ∨ q = '"') (hv : q ∉ v)
      (hw : IsMaterial inner w) : IsMaterial inner (q :: v ++ q :: w)
  | group {inner : Bool} {o c : Char} {v w : List Char} (h : (o, c) ∈ [('(', ')'), ('[', ']')])
      (hv : IsMaterial true v) (hw : IsMaterial inner w) : IsMaterial inner (o :: v ++ c :: w)

def isNamed (c : Char) : Bool := isPlain c && c != '='

/-- A parameter: white space, a type with white space behind it, the signs `&` and `...`, the name
behind `$`, white space, and a default behind `=`. -/
structure Parameter where
  indent : List Char
  type? : Option (List Char × List Char)
  isReference : Bool
  isVariadic : Bool
  name : List Char
  gap : List Char
  default? : Option (List Char)
  indent_isBlank : ∀ c ∈ indent, isBlank c = true
  type_isNamed : ∀ t ∈ type?, ∀ c ∈ t.1, isNamed c = true
  type_isBlank : ∀ t ∈ type?, t.2 ≠ [] ∧ ∀ c ∈ t.2, isBlank c = true
  name_ne_nil : name ≠ []
  name_isNamed : ∀ c ∈ name, isNamed c = true
  name_notBlank : ∀ c ∈ name, isBlank c = false
  name_dollar : name.head? ≠ some '$'
  gap_isBlank : ∀ c ∈ gap, isBlank c = true
  default_isMaterial : ∀ d ∈ default?, IsMaterial false d

namespace Parameter

variable (p : Parameter)

def front : List Char := p.indent ++ p.type?.elim [] fun t => t.1 ++ t.2

def signs : List Char :=
  (if p.isReference then ['&'] else []) ++ if p.isVariadic then ['.', '.', '.'] else []

def word : List Char := p.signs ++ '$' :: p.name

def text : List Char := p.front ++ p.word ++ p.gap ++ p.default?.elim [] ('=' :: ·)

/-- A list of parameters, with or without a comma at its end. -/
def listText (ps : List Parameter) (trailing : Bool) : List Char :=
  [','].intercalate (ps.map text) ++ if trailing then [','] else []

end Parameter

theorem isNamed_iff {c : Char} : isNamed c = true ↔ isPlain c = true ∧ c ≠ '=' := by
  rw [isNamed, Bool.and_eq_true, bne_iff_ne]

theorem isNamed_of_isBlank {c : Char} (h : isBlank c = true) : isNamed c = true := by
  refine isNamed_iff.mpr ⟨isPlain_of_isBlank h, ?_⟩
  rintro rfl
  exact absurd h (by decide)

namespace IsMaterial

variable {inner : Bool} {v w : List Char} {d : Nat}

theorem plain_append (hv : ∀ c ∈ v, isPlain c = true) (hw : IsMaterial inner w) :
    IsMaterial inner (v ++ w) := by
  induction v with
  | nil => exact hw
  | cons c v ih =>
    obtain ⟨hc, hv⟩ := List.forall_mem_cons.mp hv
    exact .plain hc (ih hv)

/-- A comma in brackets is no cut, and behind the brackets all is as in front of them. -/
theorem crosses (h : IsMaterial inner w) (hd : inner = true → d ≠ 0) :
    Crosses ⟨none, d⟩ w ⟨none, d⟩ := by
  induction h generalizing d with
  | nil => exact .refl _
  | plain hc _ ih => exact (crosses_plain hc).trans (ih hd)
  | comma _ ih =>
    have ht : Nesting.atTop ⟨none, d⟩ = false := beq_eq_false_iff_ne.mpr (hd rfl)
    exact .cons (by rw [ht, Bool.false_and]) (ih hd)
  | @quoted _ q v w hq hv _ ih =>
    have h := (crosses_quoted hq hv).trans (ih hd)
    rwa [List.append_assoc] at h
  | @group _ o c v w ho _ _ ihv ihw =>
    have h := (crosses_group ho (ihv fun _ => Nat.succ_ne_zero d)).trans (ihw hd)
    rwa [List.append_assoc] at h

end IsMaterial

namespace Parameter

variable (p : Parameter)

theorem front_isNamed : ∀ c ∈ p.front, isNamed c = true := by
  refine List.forall_mem_append.mpr ⟨fun c hc => isNamed_of_isBlank (p.indent_isBlank c hc), ?_⟩
  cases ht : p.type? with
  | none => exact fun c hc => absurd hc List.not_mem_nil
  | some t =>
    refine List.forall_mem_append.mpr ⟨p.type_isNamed t ht, fun c hc => ?_⟩
    exact isNamed_of_isBlank ((p.type_isBlank t ht).2 c hc)

theorem getLast?_front : ∀ c ∈ p.front.getLast?, isBlank c = true := by
  intro c hc
  rw [front] at hc
  cases ht : p.type? with
  | none =>
    rw [ht, Option.elim_none, List.append_nil] at hc
    exact p.indent_isBlank c (List.mem_of_getLast? hc)
  | some t =>
    obtain ⟨hn, hb⟩ := p.type_isBlank t ht
    rw [ht, Option.elim_some, ← List.append_assoc, List.getLast?_append,
      List.getLast?_eq_some_getLast hn, Option.some_or] at hc
    exact hb c (Option.some.inj hc ▸ List.getLast_mem hn)

theorem mem_signs {c : Char} (h : c ∈ p.signs) : c = '&' ∨ c = '.' := by
  rw [signs] at h
  revert h
  cases p.isReference <;> cases p.isVariadic <;> simp +contextual

theorem word_isNamed : ∀ c ∈ p.word, isNamed c = true := by
  refine List.forall_mem_append.mpr ⟨fun c hc => ?_, List.forall_mem_cons.mpr ⟨by decide, ?_⟩⟩
  · obtain rfl | rfl := p.mem_signs hc <;> decide
  · exact p.name_isNamed

theorem word_notBlank : ∀ c ∈ p.word, isBlank c = false := by
  refine List.forall_mem_append.mpr ⟨fun c hc => ?_, List.forall_mem_cons.mpr ⟨by decide, ?_⟩⟩
  · obtain rfl | rfl := p.mem_signs hc <;> decide
  · exact p.name_notBlank

theorem declaration_isNamed : ∀ c ∈ p.front ++ p.word ++ p.gap, isNamed c = true := by
  refine List.forall_mem_append.mpr ⟨List.forall_mem_append.mpr ⟨p.front_isNamed, ?_⟩, ?_⟩
  · exact p.word_isNamed
  · exact fun c hc => isNamed_of_isBlank (p.gap_isBlank c hc)

theorem isMaterial_text : IsMaterial false p.text := by
  refine .plain_append (fun c hc => (isNamed_iff.mp (p.declaration_isNamed c hc)).1) ?_
  cases hd : p.default? with
  | none => exact .nil false
  | some d => exact .plain (by decide) (p.default_isMaterial d hd)

theorem crosses_text : Crosses {} p.text {} := p.isMaterial_text.crosses nofun

theorem takeWhile_text : p.text.takeWhile (· ≠ '=') = p.front ++ p.word ++ p.gap := by
  have hn : ∀ c ∈ p.front ++ p.word ++ p.gap, decide (c ≠ '=') = true := fun c hc =>
    decide_eq_true (isNamed_iff.mp (p.declaration_isNamed c hc)).2
  rw [text, List.takeWhile_append_of_pos hn]
  cases p.default? with
  | none => exact List.append_nil _
  | some d => exact List.append_nil _

theorem words_declaration :
    (words (trim (p.text.takeWhile (· ≠ '=')))).getLast? = some p.word := by
  have hn : p.word ≠ [] := List.append_ne_nil_of_right_ne_nil _ (List.cons_ne_nil _ _)
  rw [takeWhile_text, words_trim, words_append_blanks _ p.gap_isBlank,
    getLast?_words_append p.getLast?_front hn p.word_notBlank]

theorem dropEllipses_dollar (cs : List Char) : dropEllipses ('$' :: cs) = '$' :: cs := by
  rw [dropEllipses]
  rintro cs' ⟨⟩

theorem dropWhile_name : p.name.dropWhile (· = '$') = p.name := by
  obtain ⟨c, cs, hc⟩ := List.exists_cons_of_ne_nil p.name_ne_nil
  have hd := p.name_dollar
  rw [hc, List.head?_cons, ne_eq, Option.some.injEq] at hd
  rw [hc, List.dropWhile_cons_of_neg (by simpa using hd)]

theorem drop_signs :
    (dropEllipses (p.word.dropWhile (· = '&'))).dropWhile (· = '$') = p.name := by
  have hs : dropEllipses (p.word.dropWhile (· = '&')) = '$' :: p.name := by
    rw [word, signs]
    cases p.isReference <;> cases p.isVariadic
    all_goals exact dropEllipses_dollar p.name
  rw [hs, List.dropWhile_cons_of_pos (by rfl), dropWhile_name]

theorem nameOf?_text : nameOf? p.text = some p.name := by
  rw [nameOf?, words_declaration]
  dsimp only
  rw [drop_signs, if_neg (mt List.isEmpty_iff.mp p.name_ne_nil)]

theorem split_listText {ps : List Parameter} (h : ps ≠ []) (trailing : Bool) :
    split (listText ps trailing) = ps.map text ++ if trailing then [[]] else [] := by
  induction ps with
  | nil => exact absurd rfl h
  | cons p ps ih =>
    by_cases hp : ps = []
    · subst hp
      have ht : listText [p] trailing = p.text ++ if trailing then [','] else [] := by
        rw [listText, List.map_singleton, List.intercalate_singleton]
      rw [ht]
      cases trailing with
      | false => exact (congrArg split (List.append_nil p.text)).trans p.crosses_text.split_eq
      | true => exact p.crosses_text.split_append_comma []
    · have ht : listText (p :: ps) trailing = p.text ++ ',' :: listText ps trailing := by
        rw [listText, List.map_cons, List.intercalate_cons_of_ne_nil (by simpa using hp), listText]
        simp
      rw [ht, p.crosses_text.split_append_comma, ih hp]
      rfl

theorem names_listText (ps : List Parameter) (trailing : Bool) :
    names (listText ps trailing) = ps.map (·.name) := by
  by_cases hp : ps = []
  · subst hp
    cases trailing <;> rfl
  · have he : (if trailing then [[]] else []).filterMap nameOf? = [] := by
      cases trailing <;> rfl
    have hn : nameOf? ∘ text = some ∘ name := funext nameOf?_text
    rw [names_eq, split_listText hp, List.filterMap_append, he, List.append_nil,
      List.filterMap_map, hn, List.filterMap_eq_map]

end Parameter

/-- A list of parameters is read as their names, with or without a comma at its end. -/
theorem parse_listText (ps : List Parameter) (trailing : Bool) :
    parse (String.ofList (Parameter.listText ps trailing)) =
      ps.map fun p => String.ofList p.name := by
  rw [parse, String.toList_ofList, Parameter.names_listText, List.map_map]
  rfl

/-- Commas in brackets and brackets in quotations do not end a default. -/
example : parse "?int &$id = f([1, ')']), array ...$rest ," = ["id", "rest"] := by decide

end Written

end EndpointCatalog
