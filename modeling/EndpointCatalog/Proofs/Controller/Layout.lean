import EndpointCatalog.Controller.Action
import EndpointCatalog.Proofs.Controller.MethodHeader
import EndpointCatalog.Proofs.Controller.Verbs

namespace EndpointCatalog.Written

open Pattern Dialect Text.Blank Text.Search

/-- Whether no line announces a method, the first one left aside. -/
def IsQuietBelow (cs : List Char) : Prop := ∀ l ∈ (lines cs).tail, announces l = false

instance (cs : List Char) : Decidable (IsQuietBelow cs) :=
  inferInstanceAs (Decidable (∀ l ∈ (lines cs).tail, announces l = false))

theorem isQuietBelow_cons {x : List Char} : IsQuietBelow ('\n' :: x) ↔ IsQuiet x := Iff.rfl

theorem IsQuiet.isQuietBelow {x : List Char} (h : IsQuiet x) : IsQuietBelow x := fun l hl =>
  h l (List.mem_of_mem_tail hl)

theorem tab_ne_nil : tab ≠ [] := List.cons_ne_nil _ _

theorem isBlank_tab : ∀ c ∈ tab, isBlank c = true := List.all_eq_true.mp (by decide)

/-- A method with all that stands behind its parameters up to the next one. -/
structure Member extends Heading where
  indent : List Char
  parameters : List Char
  after : List Char
  indent_ne_nil : indent ≠ []
  indent_isBlank : ∀ c ∈ indent, isBlank c = true
  parameters_inLine : '\n' ∉ parameters
  after_isQuiet : IsQuietBelow after

namespace Member

variable (m : Member)

def text : List Char :=
  '\n' :: (m.indent ++ m.toHeading.text ++ '(' :: m.parameters ++ ')' :: m.after)

def trailer : List Char := m.after.takeWhile (· ≠ '\n')

def below : List Char := m.after.dropWhile (· ≠ '\n')

def line : List Char := m.parameters ++ ')' :: m.trailer

/-- What is taken for the parameters. -/
def captured : List Char := beforeLast ')' m.line

/-- What is taken for the body. -/
def seen : List Char := behindLast ')' m.line ++ m.below

def header : List Char := '\n' :: (m.indent ++ m.toHeading.text ++ '(' :: m.captured ++ [')'])

end Member

structure Source where
  opening : List Char
  members : List Member
  opening_isQuiet : IsQuietBelow opening

def Source.text (s : Source) : List Char := s.opening ++ s.members.flatMap Member.text

/-! Where white space begins that the next header takes. -/

/-- A text up to the first break from which on it is white space. -/
def front : List Char → List Char
  | [] => []
  | c :: cs => if c = '\n' ∧ cs.all isBlank = true then [] else c :: front cs

def gap (cs : List Char) : List Char := cs.drop (front cs).length

theorem front_append_gap (cs : List Char) : front cs ++ gap cs = cs := by
  have h : front cs <+: cs := by
    induction cs with
    | nil => exact List.nil_prefix
    | cons c cs ih =>
      rw [front]
      split
      · exact List.nil_prefix
      · exact (List.prefix_cons_inj c).mpr ih
  obtain ⟨w, hw⟩ := h
  have hg : gap cs = w := (congrArg (List.drop _) hw.symm).trans List.drop_left
  rw [hg, hw]

theorem gap_cases (cs : List Char) :
    gap cs = [] ∨ ∃ w, gap cs = '\n' :: w ∧ ∀ c ∈ w, isBlank c = true := by
  induction cs with
  | nil => exact .inl rfl
  | cons c cs ih =>
    by_cases h : c = '\n' ∧ cs.all isBlank = true
    · have hg : gap (c :: cs) = c :: cs := by rw [gap, front, if_pos h]; rfl
      rw [hg]
      exact .inr ⟨cs, by rw [h.1], List.all_eq_true.mp h.2⟩
    · have hg : gap (c :: cs) = gap cs := by rw [gap, front, if_neg h]; rfl
      rw [hg]
      exact ih

theorem exists_gap_append (cs : List Char) {indent : List Char} (hn : indent ≠ [])
    (hi : ∀ c ∈ indent, isBlank c = true) :
    ∃ b, b ≠ [] ∧ (∀ c ∈ b, isBlank c = true) ∧ gap cs ++ '\n' :: indent = '\n' :: b := by
  obtain h | ⟨w, h, hw⟩ := gap_cases cs
  · exact ⟨indent, hn, hi, by rw [h, List.nil_append]⟩
  · refine ⟨w ++ '\n' :: indent, by simp, ?_, by rw [h, List.cons_append]⟩
    exact List.forall_mem_append.mpr ⟨hw, List.forall_mem_cons.mpr ⟨by decide, hi⟩⟩

theorem isBlank_gap (cs : List Char) : ∀ c ∈ gap cs, isBlank c = true := by
  obtain h | ⟨w, h, hw⟩ := gap_cases cs
  · rw [h]
    exact List.forall_mem_nil _
  · rw [h]
    exact List.forall_mem_cons.mpr ⟨by decide, hw⟩

theorem exists_of_front_eq {cs u v : List Char} (h : front cs = u ++ '\n' :: v) :
    ∃ c ∈ v, isBlank c = false := by
  induction cs generalizing u with
  | nil => simp [front] at h
  | cons c cs ih =>
    rw [front] at h
    split at h
    · simp at h
    · rename_i hn
      cases u with
      | cons d u => exact ih (List.cons_eq_cons.mp h).2
      | nil =>
        obtain ⟨rfl, rfl⟩ := List.cons_eq_cons.mp h
        have ha : ¬ ∀ d ∈ cs, isBlank d = true := fun ha => hn ⟨rfl, List.all_eq_true.mpr ha⟩
        simp only [Classical.not_forall, Bool.not_eq_true] at ha
        obtain ⟨d, hd, hb⟩ := ha
        rw [← front_append_gap cs, List.mem_append] at hd
        obtain hd | hd := hd
        · exact ⟨d, hd, hb⟩
        · rw [isBlank_gap cs d hd] at hb
          cases hb

theorem announces_of_append_break {v y : List Char} (hv : ∃ c ∈ v, isBlank c = false)
    (h : announces (v ++ '\n' :: y) = true) : announces v = true := by
  obtain ⟨w, k, z, hw, hk, he⟩ := announces_iff.mp h
  obtain ⟨x, rfl, hx⟩ | ⟨x, rfl, hx⟩ := List.append_eq_append_iff.mp he
  · obtain ⟨c, hc, hb⟩ := hv
    rw [hw c (List.mem_append_left _ hc)] at hb
    cases hb
  · obtain ⟨r, rfl⟩ := prefix_of_prefix_append_cons (not_mem_visibility hk).1 ⟨z, hx⟩
    exact announces_iff.mpr ⟨w, k, r, hw, hk, rfl⟩

theorem IsQuietBelow.of_append {u v : List Char} (h : IsQuietBelow (u ++ '\n' :: v)) :
    IsQuiet v := by
  obtain ⟨l, ls, hl⟩ := List.exists_cons_of_ne_nil (List.splitOn_ne_nil '\n' u)
  have hs : lines u = l :: ls := hl
  rw [IsQuietBelow, lines_append_cons, hs, List.cons_append, List.tail_cons] at h
  exact fun k hk => h k (List.mem_append_right _ hk)

/-- The search goes on to the white space in front of the next header. -/
theorem findFrom?_front {z : List Char} (hz : IsQuietBelow z) (o : Nat) {x : List Char}
    (hx : ∀ c ∈ x.head?, c = '\n') :
    Usual.methodHeader.findFrom? o (z ++ x) =
      Usual.methodHeader.findFrom? (o + (front z).length) (gap z ++ x) := by
  conv => lhs; rw [← front_append_gap z, List.append_assoc]
  apply findFrom?_append
  intro u v huv _
  apply Usual.methodHeader_runs_eq_nil
  intro y hy
  cases v with
  | nil => contradiction
  | cons c v =>
    rw [List.cons_append] at hy
    obtain ⟨rfl, rfl⟩ := List.cons_eq_cons.mp hy
    have hv := exists_of_front_eq huv
    have hq : IsQuiet (v ++ gap z) := by
      apply IsQuietBelow.of_append (u := u)
      rwa [← List.cons_append, ← List.append_assoc, ← huv, front_append_gap]
    -- What follows is nothing or begins with a break.
    have hb : gap z ++ x = [] ∨ ∃ w, gap z ++ x = '\n' :: w := by
      obtain hg | ⟨w, hg, -⟩ := gap_cases z
      · rw [hg, List.nil_append]
        cases x with
        | nil => exact .inl rfl
        | cons c x => exact .inr ⟨x, by rw [hx c rfl]⟩
      · exact .inr ⟨w ++ x, by rw [hg, List.cons_append]⟩
    have hn : announces v = false := by
      obtain hg | ⟨w, hg, -⟩ := gap_cases z
      · rw [hg, List.append_nil] at hq
        exact hq.announces_eq_false
      · rw [hg, isQuiet_append_cons] at hq
        exact hq.1.announces_eq_false
    obtain hb | ⟨w, hb⟩ := hb
    · rwa [hb, List.append_nil]
    · rw [hb, ← Bool.not_eq_true]
      intro ha
      rw [announces_of_append_break hv ha] at hn
      cases hn

theorem findFrom?_eq_none {z : List Char} (hz : IsQuietBelow z) (o : Nat) :
    Usual.methodHeader.findFrom? o z = none := by
  have h := findFrom?_append Usual.methodHeader o z [] fun u v huv _ => by
    apply Usual.methodHeader_runs_eq_nil
    intro y hy
    rw [List.append_nil] at hy
    rw [huv, hy] at hz
    exact hz.of_append.announces_eq_false
  rw [List.append_nil] at h
  rw [h]
  rfl

namespace Member

variable (m : Member)

theorem trailer_append_below : m.trailer ++ m.below = m.after := List.takeWhile_append_dropWhile

theorem not_mem_trailer : '\n' ∉ m.trailer := fun h => by
  have ha : ∀ c ∈ m.trailer, decide (c ≠ '\n') = true := List.all_eq_true.mp List.all_takeWhile
  exact absurd rfl (of_decide_eq_true (ha '\n' h))

theorem head?_below : ∀ c ∈ m.below.head?, c = '\n' := by
  intro c hc
  have h := List.head?_dropWhile_not (· ≠ '\n') m.after
  rw [below] at hc
  rw [Option.mem_def.mp hc] at h
  simpa using h

theorem line_eq : m.line = m.captured ++ ')' :: behindLast ')' m.line :=
  (cut_at_last (List.mem_append_right _ List.mem_cons_self)).1

theorem not_mem_line : '\n' ∉ m.line := by
  rw [line, List.mem_append, List.mem_cons, not_or, not_or]
  exact ⟨m.parameters_inLine, by decide, m.not_mem_trailer⟩

theorem not_mem_captured : '\n' ∉ m.captured := fun h =>
  m.not_mem_line (m.line_eq ▸ List.mem_append_left _ h)

theorem not_mem_behind : ∀ c ∈ behindLast ')' m.line, c ≠ ')' ∧ c ≠ '\n' := by
  intro c hc
  have hl : ')' ∉ behindLast ')' m.line :=
    (cut_at_last (List.mem_append_right _ List.mem_cons_self)).2
  refine ⟨fun h => hl (h ▸ hc), fun h => m.not_mem_line ?_⟩
  rw [m.line_eq, ← h]
  exact List.mem_append_right _ (List.mem_cons_of_mem _ hc)

theorem text_eq : m.text = m.header ++ m.seen := by
  have h : m.parameters ++ ')' :: m.after =
      m.captured ++ ')' :: (behindLast ')' m.line ++ m.below) := by
    rw [← m.trailer_append_below, ← List.cons_append, ← List.append_assoc, ← line, m.line_eq]
    simp only [List.append_assoc, List.cons_append]
    rw [← m.line_eq]
  rw [text, header, seen]
  simp only [List.append_assoc, List.cons_append, List.nil_append, h]

theorem captured_of_notMem (h : ')' ∉ m.trailer) : m.captured = m.parameters :=
  beforeLast_append_cons h _

theorem seen_of_notMem (h : ')' ∉ m.trailer) : m.seen = m.after := by
  rw [seen, line, behindLast_append_cons h, trailer_append_below]

theorem isQuietBelow_seen : IsQuietBelow m.seen := by
  have h : ∀ x : List Char, '\n' ∉ x → (lines (x ++ m.below)).tail = (lines m.below).tail := by
    intro x hx
    have hb := m.head?_below
    generalize m.below = b at hb ⊢
    cases b with
    | nil => rw [List.append_nil, lines, List.splitOn_eq_singleton hx]; rfl
    | cons c y =>
      obtain rfl := hb c rfl
      rw [lines_append_cons, lines, List.splitOn_eq_singleton hx]
      rfl
  have ha := m.after_isQuiet
  rw [IsQuietBelow, ← m.trailer_append_below, h _ m.not_mem_trailer] at ha
  rw [IsQuietBelow, seen, h _ fun hm => (m.not_mem_behind _ hm).2 rfl]
  exact ha

end Member

def methodsFrom (o : Nat) (z : List Char) : List Member → List EndpointCatalog.Method
  | [] => []
  | m :: ms =>
    let stop := o + z.length + m.header.length
    ⟨⟨o + (front z).length, gap z ++ (m :: ms).flatMap Member.text⟩,
      ⟨stop, m.seen ++ ms.flatMap Member.text⟩, m.name, m.captured⟩ :: methodsFrom stop m.seen ms

theorem head?_flatMap_text (ms : List Member) : ∀ c ∈ (ms.flatMap Member.text).head?, c = '\n' := by
  cases ms with
  | nil => exact fun c hc => absurd hc (by simp)
  | cons m ms => exact fun c hc => (Option.some.inj hc).symm

theorem findFrom?_member {z : List Char} (hz : IsQuietBelow z) (o : Nat) (m : Member)
    (ms : List Member) :
    ∃ g, Usual.methodHeader.findFrom? o (z ++ (m :: ms).flatMap Member.text) =
      some ⟨⟨o + (front z).length, gap z ++ (m :: ms).flatMap Member.text⟩,
        ⟨⟨o + z.length + m.header.length, m.seen ++ ms.flatMap Member.text⟩,
          [(1, g), (4, m.captured), (3, m.name), (2, m.visibility)]⟩⟩ := by
  have ht : ∀ c ∈ (m.below ++ ms.flatMap Member.text).head?, c = '\n' := by
    have hb := m.head?_below
    generalize m.below = b at hb ⊢
    cases b with
    | nil => exact head?_flatMap_text ms
    | cons c y => exact hb
  obtain ⟨b, hn, hb, hg⟩ := exists_gap_append z m.indent_ne_nil m.indent_isBlank
  have hs : gap z ++ (m :: ms).flatMap Member.text = '\n' :: (b ++ (m.toHeading.text ++
      '(' :: (m.captured ++ ')' :: (behindLast ')' m.line ++
        (m.below ++ ms.flatMap Member.text))))) := by
    rw [← List.cons_append, ← hg, List.flatMap_cons, m.text_eq, Member.header, Member.seen]
    simp only [List.append_assoc, List.cons_append, List.nil_append]
  -- the white space between the methods counts once, as the indent of the second
  have hl : o + (front z).length + 1 + b.length + m.toHeading.text.length + 1 +
      m.captured.length + 1 = o + z.length + m.header.length := by
    have hg' := congrArg List.length hg
    have hz' := congrArg List.length (front_append_gap z)
    simp only [List.length_append, List.length_cons, Member.header, List.length_nil] at hg' hz' ⊢
    omega
  obtain ⟨g, h⟩ := Usual.methodHeader_head? m.not_mem_captured m.not_mem_behind ht m.toHeading
    (o + (front z).length) hn hb
  rw [← hs, hl, ← List.append_assoc] at h
  refine ⟨g, ?_⟩
  rw [findFrom?_front hz o (head?_flatMap_text (m :: ms)), findFrom?_of_head? _ h]
  rfl

/-- From the end of one header the search goes to the next. -/
theorem findAllFrom_members {z : List Char} (hz : IsQuietBelow z) (ms : List Member) (o n : Nat)
    (hn : ms.length < n) (last : Option Nat) :
    (Usual.methodHeader.findAllFrom n ⟨o, z ++ ms.flatMap Member.text⟩ last).filterMap
      EndpointCatalog.Method.ofMatch? = methodsFrom o z ms := by
  induction ms generalizing z o n last with
  | nil =>
    obtain ⟨n, rfl⟩ := Nat.exists_eq_succ_of_ne_zero (Nat.ne_of_gt hn)
    rw [List.flatMap_nil, List.append_nil, findAllFrom, next?, findFrom?_eq_none hz]
    rfl
  | cons m ms ih =>
    obtain ⟨n, rfl⟩ := Nat.exists_eq_add_one_of_ne_zero (Nat.ne_zero_of_lt hn)
    obtain ⟨g, hg⟩ := findFrom?_member hz o m ms
    have hne : o + z.length + m.header.length ≠ o + (front z).length := by
      have hz' := congrArg List.length (front_append_gap z)
      rw [List.length_append] at hz'
      simp only [Member.header, List.length_cons]
      omega
    have hi := ih m.isQuietBelow_seen (o + z.length + m.header.length) n (Nat.lt_of_succ_lt_succ hn)
      (some (o + z.length + m.header.length))
    rw [findAllFrom, next?, hg]
    dsimp only
    rw [if_neg fun h => hne h.1, methodsFrom, ← hi]
    rfl

def Member.found? (f : Facts) (m : Member) : Option Endpoint :=
  ((ofConventions {}).commandOf? m.name).map fun w =>
    f.endpoint (f.kind "service") ((ofConventions {}).verbOf m.seen) (String.ofList w)
      ((Controller.Parameter.names m.captured).map String.ofList)

theorem verbOf_front (k : Conventions) (cs : List Char) :
    (ofConventions k).verbOf (front cs) = (ofConventions k).verbOf cs := by
  refine verbOf_congr k fun m hm => ?_
  have h := contains_append_blanks (isSign_of_mem_verbMarkers m hm) (front cs) (isBlank_gap cs)
  rw [front_append_gap] at h
  exact h.symm

theorem endpoints_methodsFrom (f : Facts) (o : Nat) (z : List Char) (ms : List Member) :
    EndpointCatalog.Method.endpoints (ofConventions {}) f (methodsFrom o z ms) =
      ms.filterMap (·.found? f) := by
  induction ms generalizing o z with
  | nil => rfl
  | cons m ms ih =>
    have hv : (ofConventions {}).verbOf (EndpointCatalog.Method.body
        ⟨⟨o + (front z).length, gap z ++ (m :: ms).flatMap Member.text⟩,
          ⟨o + z.length + m.header.length, m.seen ++ ms.flatMap Member.text⟩, m.name, m.captured⟩
        (methodsFrom (o + z.length + m.header.length) m.seen ms).head?) =
          (ofConventions {}).verbOf m.seen := by
      cases ms with
      | nil => exact congrArg _ (List.append_nil m.seen)
      | cons m' ms =>
        have hb : Cursor.upTo ⟨o + z.length + m.header.length,
              m.seen ++ (m' :: ms).flatMap Member.text⟩
            ⟨o + z.length + m.header.length + (front m.seen).length,
              gap m.seen ++ (m' :: ms).flatMap Member.text⟩ = front m.seen := by
          conv => lhs; arg 1; rw [← front_append_gap m.seen, List.append_assoc]
          exact upTo_append _ _ _
        exact (congrArg _ hb).trans (verbOf_front {} m.seen)
    rw [methodsFrom, EndpointCatalog.Method.endpoints, ih, EndpointCatalog.Method.endpoint?,
      List.filterMap_cons, Member.found?]
    dsimp only
    rw [hv]
    cases (ofConventions {}).commandOf? m.name <;> rfl

theorem length_members_lt (s : Source) : s.members.length < 2 * s.text.length + 2 := by
  have h : ∀ ms : List Member, ms.length ≤ (ms.flatMap Member.text).length := fun ms => by
    induction ms with
    | nil => exact Nat.le_refl _
    | cons m ms ih =>
      rw [List.flatMap_cons, List.length_append, List.length_cons, Member.text, List.length_cons]
      omega
  have hm := h s.members
  rw [Source.text, List.length_append]
  omega

/-- The actions of a source are those of its methods, each with what is taken for its parameters and
its body. -/
theorem actions_source (f : Facts) (s : Source) :
    f.actions (ofConventions {}) s.text = s.members.filterMap (·.found? f) := by
  have h := findAllFrom_members s.opening_isQuiet s.members 0 _ (length_members_lt s) none
  have ha : EndpointCatalog.Method.all (ofConventions {}) s.text =
      methodsFrom 0 s.opening s.members := h
  rw [Facts.actions, ha, endpoints_methodsFrom]

end EndpointCatalog.Written
