import EndpointCatalog.Proofs.Controller.ClassHeader
import EndpointCatalog.Proofs.Controller.Layout
import EndpointCatalog.Proofs.Text.Strays

namespace EndpointCatalog.Strewn

open Dialect Text Text.Blank Text.Search Text.Bytes Written

/-- A method whose body may hold stray bytes. Without them it begins below the header. -/
structure Method extends Heading where
  parameters : List Char
  body : Bytes
  name_isAscii : IsAscii name
  parameters_isAscii : IsAscii parameters
  parameters_inLine : '\n' ∉ parameters
  body_head : ∀ c ∈ (plain body).head?, c = '\n'
  body_isQuiet : IsQuietBelow (plain body)
  body_isWhole : ∀ m ∈ Usual.verbMarkers, IsWhole m.1.toList body

def Method.header (m : Method) : List Char :=
  '\n' :: (tab ++ m.toHeading.text ++ '(' :: m.parameters ++ [')'])

def Method.bytes (m : Method) : Bytes := written m.header ++ m.body

/-- A class whose preamble and bodies may hold stray bytes; `opening` is what stands between its
header and its first method. -/
structure Class where
  preamble : Bytes
  isAbstract : Bool
  name : List Char
  base : List Char
  opening : Bytes
  methods : List Method
  name_isAscii : IsAscii name
  name_isWord : ∀ c ∈ name, Word.isWord c = true
  name_controller : "Controller".toList <:+: name
  base_isAscii : IsAscii base
  base_ne_nil : base ≠ []
  base_isName : ∀ c ∈ base, Word.isWord c = true ∨ c = '\\'
  base_extends : ¬ "extends".toList <:+: base
  preamble_extends : ∀ l ∈ lines (plain preamble), ¬ "extends".toList <:+: l
  preamble_isQuiet : IsQuiet (plain preamble)
  opening_head : ∀ b ∈ opening.head?, b = 0x0A
  opening_isQuiet : IsQuietBelow (plain opening)

def Class.header (c : Class) : List Char :=
  (if c.isAbstract then "abstract ".toList else []) ++ "class ".toList ++ c.name ++
    " extends ".toList ++ c.base

def Class.bytes (c : Class) : Bytes :=
  c.preamble ++ (written ('\n' :: c.header) ++ (c.opening ++ c.methods.flatMap Method.bytes))

theorem lines_filter {p : Char → Bool} (hp : p '\n' = true) (cs : List Char) :
    lines (cs.filter p) = (lines cs).map (List.filter p) := by
  induction cs with
  | nil => rfl
  | cons c cs ih =>
    by_cases hc : c = '\n'
    · subst hc
      have h := lines_append_cons [] cs
      have h' := lines_append_cons [] (cs.filter p)
      rw [List.nil_append] at h h'
      rw [List.filter_cons_of_pos hp, h, h', ih, List.map_append]
      rfl
    · obtain ⟨l, ls, hl⟩ := List.exists_cons_of_ne_nil (List.splitOn_ne_nil '\n' cs)
      have h : lines (c :: cs) = (c :: l) :: ls :=
        splitOnP_append_of_forall (x := [c]) (by simp [hc]) hl
      have hl' : lines cs = l :: ls := hl
      rw [hl'] at ih
      rw [h, List.map_cons]
      by_cases hpc : p c = true
      · have h' : lines (c :: cs.filter p) = (c :: l.filter p) :: ls.map (List.filter p) :=
          splitOnP_append_of_forall (x := [c]) (by simp [hc]) ih
        rw [List.filter_cons_of_pos hpc, List.filter_cons_of_pos hpc, h']
      · rw [List.filter_cons_of_neg hpc, List.filter_cons_of_neg hpc, ih, List.map_cons]

theorem notMem_takeWhile_of_head?_filter {p : Char → Bool} {c : Char} (hc : p c = true)
    {cs : List Char} (h : ∀ d ∈ (cs.filter p).head?, d = '\n') : c ∉ cs.takeWhile (· ≠ '\n') := by
  induction cs with
  | nil => exact List.not_mem_nil
  | cons d cs ih =>
    by_cases hd : d = '\n'
    · rw [List.takeWhile_cons_of_neg (by simpa using hd)]
      exact List.not_mem_nil
    · have hp : ¬ p d = true := fun hp => by
        rw [List.filter_cons_of_pos hp] at h
        exact hd (h d rfl)
      rw [List.filter_cons_of_neg hp] at h
      rw [List.takeWhile_cons_of_pos (by simpa using hd), List.mem_cons, not_or]
      refine ⟨?_, ih h⟩
      rintro rfl
      exact hp hc

theorem isAscii_visibility {k : List Char} (hk : k ∈ visibilities) : IsAscii k := by
  obtain rfl | rfl | rfl := visibility_of_mem hk <;> decide

variable {f : Bytes → List Char} (hf : IsReading f) {x : Bytes}

include hf

theorem lines_plain (x : Bytes) :
    lines (plain x) = (lines (f x)).map (List.filter (·.toNat < 0x80)) := by
  rw [← hf.filter, lines_filter (by decide)]

omit hf in
theorem announces_filter {l : List Char} (h : announces (l.filter (·.toNat < 0x80)) = false) :
    announces l = false := by
  rw [← Bool.not_eq_true]
  intro ha
  obtain ⟨w, k, y, hw, hk, rfl⟩ := announces_iff.mp ha
  have hkf : k.filter (·.toNat < 0x80) = k :=
    List.filter_eq_self.mpr fun c hc => decide_eq_true (isAscii_visibility hk c hc)
  have hn : announces ((w ++ (k ++ y)).filter (·.toNat < 0x80)) = true := by
    rw [List.filter_append, List.filter_append, hkf]
    exact announces_iff.mpr ⟨_, k, _, fun c hc => hw c (List.mem_filter.mp hc).1, hk, rfl⟩
  rw [h] at hn
  cases hn

theorem isQuiet_reading (h : IsQuiet (plain x)) : IsQuiet (f x) := by
  intro l hl
  apply announces_filter
  apply h
  rw [lines_plain hf]
  exact List.mem_map_of_mem hl

theorem isQuietBelow_reading (h : IsQuietBelow (plain x)) : IsQuietBelow (f x) := by
  intro l hl
  apply announces_filter
  apply h
  rw [lines_plain hf, ← List.map_tail]
  exact List.mem_map_of_mem hl

theorem not_extends_reading (h : ∀ l ∈ lines (plain x), ¬ "extends".toList <:+: l) :
    ∀ l ∈ lines (f x), ¬ "extends".toList <:+: l := by
  intro l hl he
  have hm : l.filter (·.toNat < 0x80) ∈ lines (plain x) := by
    rw [lines_plain hf]
    exact List.mem_map_of_mem hl
  have ha : "extends".toList.filter (·.toNat < 0x80) = "extends".toList := by decide
  exact h _ hm (ha ▸ he.filter _)

theorem reading_nil : f [] = [] := by
  have h := hf.append [] [] (fun _ h => by cases h)
  rw [List.append_nil, List.self_eq_append_right] at h
  exact h

theorem reading_cases (hx : ∀ b ∈ x.head?, b = 0x0A) : f x = [] ∨ ∃ y, f x = '\n' :: y := by
  cases x with
  | nil => exact .inl (reading_nil hf)
  | cons b x =>
    obtain rfl := hx b rfl
    exact .inr ⟨f x, hf.written_append ['\n'] x (by decide)⟩

namespace Method

variable (m : Method)

def member : Member where
  toHeading := m.toHeading
  indent := tab
  parameters := m.parameters
  after := f m.body
  indent_ne_nil := tab_ne_nil
  indent_isBlank := isBlank_tab
  parameters_inLine := m.parameters_inLine
  after_isQuiet := isQuietBelow_reading hf m.body_isQuiet

omit hf in
theorem isAscii_header : IsAscii m.header := by
  have hv := isAscii_visibility m.visibility_mem
  have hw : IsAscii functionWord := by decide
  have ht : IsAscii tab := by decide
  intro c hc
  simp only [header, Heading.text, List.mem_cons, List.mem_append, List.not_mem_nil, or_false] at hc
  obtain rfl | ((hc | ((hc | hc) | hc)) | rfl | hc) | rfl := hc
  · decide
  · exact ht c hc
  · exact hv c hc
  · exact hw c hc
  · exact m.name_isAscii c hc
  · decide
  · exact m.parameters_isAscii c hc
  · decide

theorem not_mem_trailer_member : ')' ∉ (m.member hf).trailer := by
  apply notMem_takeWhile_of_head?_filter (p := (·.toNat < 0x80)) (by decide)
  have hp : (m.member hf).after.filter (·.toNat < 0x80) = plain m.body := hf.filter m.body
  rw [hp]
  exact m.body_head

theorem verbOf_body (k : Conventions) :
    (ofConventions k).verbOf (f m.body) = (ofConventions k).verbOf (plain m.body) := by
  have ha : ∀ w ∈ Usual.verbMarkers, IsAscii w.1.toList := by decide
  refine verbOf_congr k fun w hw => ?_
  exact hf.contains_eq (isSign_of_mem_verbMarkers w hw).1 (ha w hw) (m.body_isWhole w hw)

/-- The endpoint of a method is the same however its strays are read. -/
theorem found?_member (fs : Facts) :
    (m.member hf).found? fs = (m.member isReading_plain).found? fs := by
  have h := m.not_mem_trailer_member hf
  have hp := m.not_mem_trailer_member isReading_plain
  rw [Member.found?, Member.found?, Member.captured_of_notMem _ h, Member.seen_of_notMem _ h,
    Member.captured_of_notMem _ hp, Member.seen_of_notMem _ hp]
  have hv : (ofConventions {}).verbOf (m.member hf).after =
      (ofConventions {}).verbOf (m.member isReading_plain).after := m.verbOf_body hf {}
  rw [hv]
  rfl

end Method

omit hf in
theorem head?_methods (ms : List Method) : ∀ b ∈ (ms.flatMap Method.bytes).head?, b < 0x80 := by
  cases ms with
  | nil => exact fun _ h => by cases h
  | cons m ms =>
    rw [List.flatMap_cons, Method.bytes, List.append_assoc]
    exact lt_of_mem_head?_written_append (List.cons_ne_nil _ _) m.isAscii_header _

theorem reading_methods (ms : List Method) :
    f (ms.flatMap Method.bytes) = (ms.map (·.member hf)).flatMap Member.text := by
  induction ms with
  | nil => exact reading_nil hf
  | cons m ms ih =>
    rw [List.flatMap_cons, Method.bytes, List.append_assoc, hf.written_append _ _ m.isAscii_header,
      hf.append _ _ (head?_methods ms), ih, List.map_cons, List.flatMap_cons]
    simp [Method.header, Member.text, Method.member]

namespace Class

variable (c : Class)

def outline : Written.Class where
  preamble := f c.preamble
  isAbstract := c.isAbstract
  name := c.name
  base := c.base
  methods := []
  name_isWord := c.name_isWord
  name_controller := c.name_controller
  base_ne_nil := c.base_ne_nil
  base_isName := c.base_isName
  base_extends := c.base_extends
  preamble_extends := not_extends_reading hf c.preamble_extends
  preamble_isQuiet := isQuiet_reading hf c.preamble_isQuiet

omit hf in
theorem isAscii_header : IsAscii c.header := by
  have ha : IsAscii (if c.isAbstract then "abstract ".toList else []) := by
    split <;> decide
  have hk : IsAscii "class ".toList := by decide
  have he : IsAscii " extends ".toList := by decide
  intro d hd
  simp only [header, List.mem_append] at hd
  obtain (((hd | hd) | hd) | hd) | hd := hd
  · exact ha d hd
  · exact hk d hd
  · exact c.name_isAscii d hd
  · exact he d hd
  · exact c.base_isAscii d hd

omit hf in
theorem isQuiet_append_below {y z : List Char} (hy : IsQuiet y) (hz : z = [] ∨ ∃ w, z = '\n' :: w)
    (h : IsQuietBelow z) : IsQuiet (y ++ z) := by
  obtain rfl | ⟨w, rfl⟩ := hz
  · rwa [List.append_nil]
  · exact isQuiet_append_cons.mpr ⟨hy, h⟩

/-- The class as a source, as it is read. -/
def source : Source where
  opening := f c.preamble ++ '\n' :: (c.header ++ f c.opening)
  members := c.methods.map (·.member hf)
  opening_isQuiet := by
    have hb : IsQuiet (c.header ++ f c.opening) := isQuiet_append_below
      (Usual.isQuiet_header (c.outline hf)) (reading_cases hf c.opening_head)
      (isQuietBelow_reading hf c.opening_isQuiet)
    have hs : IsQuiet (f c.preamble ++ '\n' :: (c.header ++ f c.opening)) :=
      isQuiet_append_cons.mpr ⟨isQuiet_reading hf c.preamble_isQuiet, hb⟩
    exact hs.isQuietBelow

theorem reading_bytes : f c.bytes = (c.source hf).text := by
  have hb : IsAscii ('\n' :: c.header) :=
    List.forall_mem_cons.mpr ⟨by decide, c.isAscii_header⟩
  rw [bytes, hf.append _ _ (lt_of_mem_head?_written_append (List.cons_ne_nil _ _) hb _),
    hf.written_append _ _ hb, hf.append _ _ (head?_methods _),
    reading_methods hf]
  simp [Source.text, source]

theorem actions_bytes (fs : Facts) :
    fs.actions (ofConventions {}) (f c.bytes) = fs.actions (ofConventions {}) (plain c.bytes) := by
  rw [c.reading_bytes hf, c.reading_bytes isReading_plain, actions_source, actions_source, source,
    source, List.filterMap_map, List.filterMap_map]
  exact congrArg (List.filterMap · c.methods) (funext fun m => m.found?_member hf fs)

omit hf in
theorem actions_bytes_of_methods_eq_nil (hm : c.methods = []) (fs : Facts) :
    fs.actions (ofConventions {}) (plain c.bytes) = [] := by
  rw [c.reading_bytes isReading_plain, actions_source, source, hm]
  rfl

theorem classOf_bytes (hm : c.methods ≠ []) (k : Conventions) :
    Facts.classOf (ofConventions k) (f c.bytes) =
      (String.ofList (Facts.lastSegment c.base), c.isAbstract) := by
  obtain ⟨tail, ht⟩ :
      ∃ tail, f c.opening ++ (c.methods.map (·.member hf)).flatMap Member.text = '\n' :: tail := by
    obtain h | ⟨y, h⟩ := reading_cases hf c.opening_head
    · obtain ⟨m, ms, hms⟩ := List.exists_cons_of_ne_nil hm
      rw [h, hms]
      exact ⟨_, rfl⟩
    · rw [h]
      exact ⟨_, rfl⟩
  have hs : (c.source hf).text = (c.outline hf).preamble ++ '\n' :: ((c.outline hf).header ++
      '\n' :: tail) := by
    rw [Source.text, source, List.append_assoc, List.cons_append, List.append_assoc, ht]
    rfl
  rw [c.reading_bytes hf, hs, Usual.classOf_append]
  rfl

end Class

end EndpointCatalog.Strewn
