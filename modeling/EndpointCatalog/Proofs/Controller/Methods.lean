import EndpointCatalog.Proofs.Controller.Layout

namespace EndpointCatalog.Written

open Dialect Text.Blank Text.Search

theorem isQuiet_opened {w x : List Char} (hw : ∀ c ∈ w, isBlank c = true ∧ c ≠ '\n')
    (hx : IsQuiet x) : IsQuiet (w ++ '{' :: x) := by
  obtain ⟨l, ls, hl⟩ := List.exists_cons_of_ne_nil (List.splitOn_ne_nil '\n' x)
  have hn : ∀ c ∈ w ++ ['{'], (c == '\n') = false := by
    simpa [or_imp, forall_and] using fun c hc => (hw c hc).2
  have hs : lines (w ++ '{' :: x) = (w ++ '{' :: l) :: ls := by
    rw [lines, ← List.singleton_append, ← List.append_assoc, List.splitOn,
      splitOnP_append_of_forall hn hl, List.append_assoc]
    rfl
  intro k hk
  rw [hs, List.mem_cons] at hk
  obtain rfl | hk := hk
  · rw [announces_append fun c hc => (hw c hc).1, ← Bool.not_eq_true]
    intro ha
    have hb : announces [] = true := announces_of_append_cons (x := []) (c := '{') (by rfl)
      (fun k hk => (not_mem_visibility hk).2.1) ha
    cases hb
  · have hm : k ∈ lines x := by
      rw [lines, hl]
      exact List.mem_cons_of_mem _ hk
    exact hx k hm

def closing : List Char := ['\n', '}']

/-- The method in its class; behind the last one the class ends. -/
def Method.member (m : Method) (isLast : Bool) : Member where
  toHeading := m.heading
  indent := tab
  parameters := m.parameters
  after := m.block ++ if isLast then closing else []
  indent_ne_nil := tab_ne_nil
  indent_isBlank := isBlank_tab
  parameters_inLine := m.parameters_inLine
  after_isQuiet := by
    have ht : ∀ c ∈ tab, isBlank c = true ∧ c ≠ '\n' := by simp [tab, isBlank]
    have he : IsQuiet (tab ++ '}' :: if isLast then closing else []) := by
      cases isLast <;> decide
    have hb : m.block ++ (if isLast then closing else []) = '\n' :: (tab ++ '{' :: (m.body ++
        '\n' :: (tab ++ '}' :: if isLast then closing else []))) := by simp [Method.block]
    rw [hb, isQuietBelow_cons]
    exact isQuiet_opened ht (isQuiet_append_cons.mpr ⟨m.body_isQuiet, he⟩)

def members : List Method → List Member
  | [] => []
  | [m] => [m.member true]
  | m :: ms => m.member false :: members ms

theorem text_member (m : Method) (isLast : Bool) :
    (m.member isLast).text = m.text ++ if isLast then closing else [] := by
  have h : m.text = '\n' :: (tab ++ m.heading.text ++ '(' :: m.parameters ++ ')' :: m.block) := by
    simp [Method.text, Method.header, Heading.text, Method.heading]
  rw [h, Member.text]
  simp [Method.member]

theorem flatMap_text_members {ms : List Method} (h : ms ≠ []) :
    (members ms).flatMap Member.text = ms.flatMap Method.text ++ closing := by
  induction ms with
  | nil => exact absurd rfl h
  | cons m ms ih =>
    cases ms with
    | nil =>
      rw [members, List.flatMap_singleton, List.flatMap_singleton, text_member]
      rfl
    | cons m' ms =>
      rw [members, List.flatMap_cons, ih (List.cons_ne_nil _ _), text_member]
      · simp
      · exact List.cons_ne_nil _ _

theorem commandOf?_name (m : Method) : (ofConventions {}).commandOf? m.name = m.command? := by
  apply Option.ext
  intro w
  rw [Method.command?_eq_some]
  simp only [commandOf?, ofConventions, Option.filter_eq_some_iff, until?_eq_some, Bool.not_eq_true',
    List.isEmpty_eq_false_iff]
  exact and_comm

/-- No brace and no white space around a body belongs to a marker. -/
theorem contains_block {w : List Char} (hw : IsSign w) (ho : '{' ∉ w) (hc : '}' ∉ w) (m : Method)
    (isLast : Bool) :
    contains w (m.block ++ if isLast then closing else []) = contains w m.body := by
  have hn : '\n' ∉ w := hw.notMem (by decide)
  have he : contains w [] = false := contains_nil hw
  have ht : contains w tab = false :=
    (contains_append_blanks hw [] isBlank_tab).trans he
  have hx : contains w (if isLast then closing else []) = false := by
    cases isLast with
    | false => exact he
    | true =>
      have hs : closing = [] ++ '\n' :: ([] ++ '}' :: []) := rfl
      rw [if_pos rfl, hs, contains_append_cons hn, contains_append_cons hc, he]
      rfl
  have hb : m.block ++ (if isLast then closing else []) = [] ++ '\n' :: (tab ++ '{' :: (m.body ++
      '\n' :: (tab ++ '}' :: if isLast then closing else []))) := by simp [Method.block]
  rw [hb, contains_append_cons hn, contains_append_cons ho, contains_append_cons hn,
    contains_append_cons hc, he, ht, hx, Bool.or_false, Bool.or_false, Bool.false_or, Bool.false_or]

theorem notMem_of_mem_verbMarkers :
    ∀ m ∈ Usual.verbMarkers, '{' ∉ m.1.toList ∧ '}' ∉ m.1.toList := by decide

theorem found?_member (f : Facts) (m : Method) (isLast : Bool) :
    (m.member isLast).found? f = m.endpoint? f := by
  have ht : ')' ∉ (m.member isLast).trailer := by
    have hn : (m.member isLast).trailer = [] := rfl
    rw [hn]
    exact List.not_mem_nil
  have hv : (ofConventions {}).verbOf (m.block ++ if isLast then closing else []) =
      (ofConventions {}).verbOf m.body := verbOf_congr {} fun k hk =>
    contains_block (isSign_of_mem_verbMarkers k hk) (notMem_of_mem_verbMarkers k hk).1
      (notMem_of_mem_verbMarkers k hk).2 m isLast
  rw [Member.found?, Member.captured_of_notMem _ ht, Member.seen_of_notMem _ ht, Method.endpoint?]
  exact congr (congrArg _ (funext fun w => by rw [← hv]; rfl)) (commandOf?_name m)

theorem filterMap_found?_members (f : Facts) (ms : List Method) :
    (members ms).filterMap (·.found? f) = ms.filterMap (·.endpoint? f) := by
  induction ms with
  | nil => rfl
  | cons m ms ih =>
    cases ms with
    | nil => rw [members, List.filterMap_cons, found?_member, List.filterMap_cons]; rfl
    | cons m' ms =>
      rw [members, List.filterMap_cons, found?_member, ih, ← List.filterMap_cons]
      exact List.cons_ne_nil _ _

end EndpointCatalog.Written
