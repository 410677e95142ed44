import EndpointCatalog.Controller.Facts
import EndpointCatalog.Controller.Parameter
import EndpointCatalog.Proofs.Text.Search

namespace EndpointCatalog.Written

open Text Text.Blank Text.Search

def lines (cs : List Char) : List (List Char) := cs.splitOn '\n'

def visibilities : List (List Char) := ["private".toList, "public".toList, "protected".toList]

/-- Whether a text starts, after white space, with a word that tells who may call a method. -/
def announces (cs : List Char) : Bool := visibilities.any (·.isPrefixOf (trimStart cs))

def IsQuiet (cs : List Char) : Prop := ∀ l ∈ lines cs, announces l = false

instance (cs : List Char) : Decidable (IsQuiet cs) :=
  inferInstanceAs (Decidable (∀ l ∈ lines cs, announces l = false))

structure Method where
  visibility : List Char
  name : List Char
  parameters : List Char
  body : List Char
  visibility_mem : visibility ∈ visibilities
  name_ne_nil : name ≠ []
  name_isWord : ∀ c ∈ name, Word.isWord c = true
  parameters_inLine : '\n' ∉ parameters
  body_isQuiet : IsQuiet body

def tab : List Char := [' ', ' ', ' ', ' ']

def functionWord : List Char := " function ".toList

structure Heading where
  visibility : List Char
  name : List Char
  visibility_mem : visibility ∈ visibilities
  name_ne_nil : name ≠ []
  name_isWord : ∀ c ∈ name, Word.isWord c = true

def Heading.text (h : Heading) : List Char := h.visibility ++ functionWord ++ h.name

namespace Method

def heading (m : Method) : Heading where
  visibility := m.visibility
  name := m.name
  visibility_mem := m.visibility_mem
  name_ne_nil := m.name_ne_nil
  name_isWord := m.name_isWord

def header (m : Method) : List Char :=
  m.visibility ++ functionWord ++ m.name ++ '(' :: m.parameters ++ [')']

/-- The body between its braces, each of which is indented on a line of its own. -/
def block (m : Method) : List Char :=
  '\n' :: tab ++ '{' :: m.body ++ '\n' :: tab ++ ['}']

def text (m : Method) : List Char := '\n' :: tab ++ m.header ++ m.block

/-- The command that a method answers: what stands before `Action` in its name. -/
def command? (m : Method) : Option (List Char) :=
  let n := m.name.length - "Action".toList.length
  if 0 < n ∧ m.name.drop n = "Action".toList then some (m.name.take n) else none

theorem command?_eq_some {m : Method} {w : List Char} :
    m.command? = some w ↔ w ≠ [] ∧ m.name = w ++ "Action".toList := by
  generalize ha : "Action".toList = a
  simp only [command?, ha, Option.ite_none_right_eq_some, Option.some.injEq]
  constructor
  · rintro ⟨⟨hn, hd⟩, rfl⟩
    refine ⟨fun he => ?_, ?_⟩
    · rw [List.take_eq_nil_iff] at he
      obtain he | he := he
      · omega
      · simp [he] at hn
    · have h := List.take_append_drop (m.name.length - a.length) m.name
      rw [hd] at h
      exact h.symm
  · rintro ⟨hw, hm⟩
    have hl : m.name.length - a.length = w.length := by simp [hm]
    rw [hl, hm]
    refine ⟨⟨List.length_pos_iff.mpr hw, List.drop_left⟩, List.take_left⟩

def endpoint? (f : Facts) (m : Method) : Option Endpoint :=
  m.command?.map fun w =>
    f.endpoint (f.kind "service") ((Dialect.ofConventions {}).verbOf m.body) (String.ofList w)
      ((Controller.Parameter.names m.parameters).map String.ofList)

end Method

structure Class where
  preamble : List Char
  isAbstract : Bool
  name : List Char
  base : List Char
  methods : List Method
  name_isWord : ∀ c ∈ name, Word.isWord c = true
  name_controller : "Controller".toList <:+: name
  base_ne_nil : base ≠ []
  base_isName : ∀ c ∈ base, Word.isWord c = true ∨ c = '\\'
  base_extends : ¬ "extends".toList <:+: base
  preamble_extends : ∀ l ∈ lines preamble, ¬ "extends".toList <:+: l
  preamble_isQuiet : IsQuiet preamble

namespace Class

def header (c : Class) : List Char :=
  (if c.isAbstract then "abstract ".toList else []) ++ "class ".toList ++ c.name ++
    " extends ".toList ++ c.base

def text (c : Class) : List Char :=
  c.preamble ++ '\n' :: c.header ++ ['\n', '{'] ++ c.methods.flatMap Method.text ++ ['\n', '}']

def facts (c : Class) (p : Path) (model? : Option Path) : Facts where
  module := Facts.moduleOf p
  controller := Facts.controllerOf (p.fileName?.getD "") "Controller.php"
  fileName := p.fileName?.getD ""
  baseClass := String.ofList (Facts.lastSegment c.base)
  isAbstract := c.isAbstract
  modelFile? := model?

end Class

theorem lines_append_cons (x y : List Char) : lines (x ++ '\n' :: y) = lines x ++ lines y :=
  List.splitOn_append_cons_self x y

theorem exists_first_line (x : List Char) :
    ∃ l ls, lines x = l :: ls ∧ '\n' ∉ l ∧ ∀ y, ∃ z, x ++ '\n' :: y = l ++ '\n' :: z := by
  induction x with
  | nil => exact ⟨[], [], rfl, by simp, fun y => ⟨y, rfl⟩⟩
  | cons c x ih =>
    obtain ⟨l, ls, hl, hn, hz⟩ := ih
    by_cases hc : c = '\n'
    · subst hc
      exact ⟨[], lines x, rfl, by simp, fun y => ⟨x ++ '\n' :: y, rfl⟩⟩
    · refine ⟨c :: l, ls, ?_, by simp [hn, Ne.symm hc], fun y => ?_⟩
      · exact splitOnP_append_of_forall (x := [c]) (by simp [hc]) hl
      · obtain ⟨z, h⟩ := hz y
        exact ⟨z, by rw [List.cons_append, h]; rfl⟩

theorem visibility_of_mem {k : List Char} (hk : k ∈ visibilities) :
    k = "private".toList ∨ k = "public".toList ∨ k = "protected".toList := by
  simpa [visibilities] using hk

theorem not_mem_visibility {k : List Char} (hk : k ∈ visibilities) :
    '\n' ∉ k ∧ '{' ∉ k ∧ '}' ∉ k := by
  obtain rfl | rfl | rfl := visibility_of_mem hk <;> decide

theorem trimStart_visibility {k : List Char} (hk : k ∈ visibilities) (cs : List Char) :
    trimStart (k ++ cs) = k ++ cs := by
  obtain rfl | rfl | rfl := visibility_of_mem hk <;> rfl

theorem announces_append {w : List Char} (hw : ∀ c ∈ w, isBlank c = true) (cs : List Char) :
    announces (w ++ cs) = announces cs := by
  simp only [announces, trimStart, List.dropWhile_append_of_pos hw]

theorem announces_visibility {k : List Char} (hk : k ∈ visibilities) (cs : List Char) :
    announces (k ++ cs) = true := by
  rw [announces, trimStart_visibility hk]
  exact List.any_eq_true.mpr ⟨k, hk, by simp⟩

theorem announces_iff {cs : List Char} :
    announces cs = true ↔
      ∃ w k y, (∀ c ∈ w, isBlank c = true) ∧ k ∈ visibilities ∧ cs = w ++ (k ++ y) := by
  constructor
  · intro h
    obtain ⟨k, hk, hp⟩ := List.any_eq_true.mp h
    obtain ⟨y, hy⟩ := List.isPrefixOf_iff_prefix.mp hp
    refine ⟨cs.takeWhile isBlank, k, y, List.all_eq_true.mp List.all_takeWhile, hk, ?_⟩
    rw [hy]
    exact List.takeWhile_append_dropWhile.symm
  · rintro ⟨w, k, y, hw, hk, rfl⟩
    rw [announces_append hw, announces_visibility hk]

/-- White space may go on over several lines, but the word itself stands on one. -/
theorem exists_line_of_announces {cs : List Char} (h : announces cs = true) :
    ∃ l ∈ lines cs, announces l = true := by
  obtain ⟨w, k, y, hw, hk, rfl⟩ := announces_iff.mp h
  clear h
  -- on the white space in front of the word
  induction w with
  | nil =>
    obtain ⟨l, ls, hl⟩ := List.exists_cons_of_ne_nil (List.splitOn_ne_nil '\n' y)
    have hn : ∀ c ∈ k, (c == '\n') = false := fun c hc => by
      rw [beq_eq_false_iff_ne]
      rintro rfl
      exact (not_mem_visibility hk).1 hc
    have hs : lines ([] ++ (k ++ y)) = (k ++ l) :: ls := splitOnP_append_of_forall hn hl
    refine ⟨k ++ l, ?_, announces_visibility hk l⟩
    rw [hs]
    exact List.mem_cons_self
  | cons c w ih =>
    obtain ⟨l, hl, ha⟩ := ih fun d hd => hw d (by simp [hd])
    have hc : isBlank c = true := hw c (by simp)
    by_cases hn : c = '\n'
    · subst hn
      have hs := lines_append_cons [] (w ++ (k ++ y))
      exact ⟨l, by rw [List.nil_append] at hs; simp [hs, hl], ha⟩
    · obtain ⟨l', ls, hs⟩ := List.exists_cons_of_ne_nil (List.splitOn_ne_nil '\n' (w ++ (k ++ y)))
      have hs' : lines ([c] ++ (w ++ (k ++ y))) = (c :: l') :: ls :=
        splitOnP_append_of_forall (by simp [hn]) hs
      have hm : l = l' ∨ l ∈ ls := by simpa [lines, hs] using hl
      obtain rfl | hm := hm
      · refine ⟨c :: l, ?_, (announces_append (w := [c]) (by simp [hc]) l).trans ha⟩
        rw [List.cons_append, ← List.singleton_append, hs']
        exact List.mem_cons_self
      · refine ⟨l, ?_, ha⟩
        rw [List.cons_append, ← List.singleton_append, hs']
        exact List.mem_cons_of_mem _ hm

theorem IsQuiet.announces_eq_false {cs : List Char} (h : IsQuiet cs) : announces cs = false := by
  rw [← Bool.not_eq_true]
  intro ha
  obtain ⟨l, hl, hq⟩ := exists_line_of_announces ha
  rw [h l hl] at hq
  cases hq

theorem isQuiet_append_cons {x y : List Char} : IsQuiet (x ++ '\n' :: y) ↔ IsQuiet x ∧ IsQuiet y := by
  simp only [IsQuiet, lines_append_cons, List.forall_mem_append]

theorem announces_of_append_cons {x y : List Char} {c : Char} (hc : isBlank c = false)
    (hv : ∀ k ∈ visibilities, c ∉ k) (h : announces (x ++ c :: y) = true) :
    announces x = true := by
  obtain ⟨w, k, z, hw, hk, he⟩ := announces_iff.mp h
  have hn : c ∉ w ++ k := by
    rw [List.mem_append, not_or]
    refine ⟨fun hm => ?_, hv k hk⟩
    rw [hw c hm] at hc
    cases hc
  have hp : w ++ k <+: x ++ c :: y := ⟨z, by rw [he, List.append_assoc]⟩
  obtain ⟨r, hr⟩ := prefix_of_prefix_append_cons hn hp
  exact announces_iff.mpr ⟨w, k, r, hw, hk, by rw [← hr, List.append_assoc]⟩

end EndpointCatalog.Written
