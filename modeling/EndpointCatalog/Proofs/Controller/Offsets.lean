import EndpointCatalog.Controller.Action
import EndpointCatalog.Proofs.Controller.Camel
import EndpointCatalog.Proofs.Controller.Nesting
import EndpointCatalog.Proofs.Pattern.Offsets

namespace EndpointCatalog

open Text Text.Bytes Text.Search

namespace Method

/-- A method by the offsets between which its header lies, the name, and the text of the
parameters. -/
structure Header where
  start : Nat
  stop : Nat
  name : List Char
  parameters : List Char

def header (source : List Char) (m : Method) : Header :=
  ⟨m.start.byte source, m.stop.byte source, m.name, m.parameters⟩

namespace Header

def body? (source : Bytes) (h : Header) (next : Option Header) : Option Bytes :=
  slice? source h.stop (next.elim source.length (·.start))

/-- The endpoints of methods, if all bodies that are looked at can be cut out. -/
def endpoints? (d : Dialect) (f : Facts) (source : Bytes) : List Header → Option (List Endpoint)
  | [] => some []
  | h :: hs =>
    match d.commandOf? h.name with
    | none => endpoints? d f source hs
    | some command => do
      let body ← (h.body? source hs.head?).bind decode?
      let endpoint := f.endpoint (f.kind d.conventions.serviceMarker) (d.verbOf body.toList)
        (String.ofList command) ((Controller.Parameter.names h.parameters).map String.ofList)
      (endpoints? d f source hs).map (endpoint :: ·)

/-- Whether headers lie in a source one behind the other, and break no character. -/
structure InOrder (source : Bytes) (hs : List Header) : Prop where
  inside : ∀ h ∈ hs, h.start ≤ h.stop ∧ h.stop ≤ source.length ∧
    isBoundary source h.start = true ∧ isBoundary source h.stop = true
  apart : hs.Pairwise fun h h' => h.stop ≤ h'.start

end Header

end Method

namespace IsScan

variable {source : List Char} {found : List Match} {m : Method}

theorem reaches (h : IsScan source found) (hm : m ∈ found.filterMap Method.ofMatch?) :
    (Cursor.start source).Reaches m.start ∧ m.start.Reaches m.stop := by
  obtain ⟨k, hk, hm⟩ := List.mem_filterMap.mp hm
  obtain ⟨name, -, rfl⟩ := Option.map_eq_some_iff.mp hm
  exact h.inside k hk

theorem pairwise (h : IsScan source found) :
    (found.filterMap Method.ofMatch?).Pairwise fun m m' => m.stop.Reaches m'.start := by
  rw [List.pairwise_filterMap]
  refine h.apart.imp fun {k k'} hk m hm m' hm' => ?_
  obtain ⟨name, -, rfl⟩ := Option.map_eq_some_iff.mp hm
  obtain ⟨name', -, rfl⟩ := Option.map_eq_some_iff.mp hm'
  exact hk

theorem inOrder (h : IsScan source found) :
    Method.Header.InOrder (spell source)
      ((found.filterMap Method.ofMatch?).map (Method.header source)) where
  inside := by
    refine List.forall_mem_map.mpr fun m hm => ?_
    obtain ⟨hs, ht⟩ := h.reaches hm
    refine ⟨Cursor.byte_le_byte hs ht, ?_, Cursor.isBoundary_byte _ _, Cursor.isBoundary_byte _ _⟩
    have hf := Cursor.byte_le_byte (hs.trans ht) (Cursor.reaches_finish (hs.trans ht))
    rwa [Cursor.byte_finish] at hf
  apart := by
    rw [List.pairwise_map]
    refine List.Pairwise.imp_of_mem (fun {m m'} hm _ hr => ?_) h.pairwise
    obtain ⟨hs, ht⟩ := h.reaches hm
    exact Cursor.byte_le_byte (hs.trans ht) hr

theorem body?_header {next : Option Method} (h : (Cursor.start source).Reaches m.stop)
    (hn : ∀ n ∈ next, m.stop.Reaches n.start) :
    (m.header source).body? (spell source) (next.map (Method.header source)) =
      some (spell (m.body next)) := by
  cases next with
  | none =>
    have hs := Cursor.slice?_byte h (Cursor.reaches_finish h)
    rwa [Cursor.byte_finish, Cursor.upTo_finish h] at hs
  | some n => exact Cursor.slice?_byte h (hn n rfl)

end IsScan

namespace Method.Header

variable {source : List Char}

/-- Methods that lie one behind the other have the endpoints that are found by offsets. -/
theorem endpoints?_map_header (d : Dialect) (f : Facts) {ms : List Method}
    (hs : ∀ m ∈ ms, (Cursor.start source).Reaches m.stop)
    (ha : ms.Pairwise fun m m' => m.stop.Reaches m'.start) :
    endpoints? d f (spell source) (ms.map (header source)) = some (Method.endpoints d f ms) := by
  induction ms with
  | nil => rfl
  | cons m ms ih =>
    obtain ⟨hm, hs⟩ := List.forall_mem_cons.mp hs
    obtain ⟨hn, ha⟩ := List.pairwise_cons.mp ha
    have hb := IsScan.body?_header hm fun n hn' => hn n (List.mem_of_head? hn')
    have hc : d.commandOf? (m.header source).name = d.commandOf? m.name := rfl
    rw [List.map_cons, endpoints?, Method.endpoints, Method.endpoint?, hc]
    cases d.commandOf? m.name with
    | none => exact ih hs ha
    | some command =>
      dsimp only [Option.map_some, Option.toList_some]
      rw [List.head?_map, hb, Option.bind_some, decode?_spell, ih hs ha, Option.bind_eq_bind,
        Option.bind_some, Option.map_some, String.toList_ofList]
      rfl

end Method.Header

def Facts.actions? (f : Facts) (d : Dialect) (source : String) : Option (List Endpoint) :=
  Method.Header.endpoints? d f (encode source)
    ((Method.all d source.toList).map (Method.header source.toList))

namespace Facts

/-- The part of a file name before the suffix. It is looked for in lower case, and then cut out of
the name as it is. -/
def stem? (fileName suffix : Bytes) : Option Bytes :=
  match Bytes.find? (suffix.map lowerByte) (fileName.map lowerByte) with
  | some i => slice? fileName 0 i
  | none => some fileName

theorem before?_lowered (suffix cs : List Char) :
    before? (lowered suffix).isPrefixOf (lowered cs) = (before? (leads suffix) cs).map lowered := by
  have hp : ∀ cs, (lowered suffix).isPrefixOf (lowered cs) = leads suffix cs := by
    intro cs
    rw [Bool.eq_iff_iff, List.isPrefixOf_iff_prefix, leads_iff]
  induction cs with
  | nil =>
    have hn : (lowered suffix).isPrefixOf [] = leads suffix [] := hp []
    change before? _ [] = _
    rw [before?, before?, hn]
    split <;> rfl
  | cons c cs ih =>
    have hc : (lowered suffix).isPrefixOf (c.toLower :: lowered cs) = leads suffix (c :: cs) :=
      hp (c :: cs)
    change before? _ (c.toLower :: lowered cs) = _
    rw [before?, before?, hc, ih]
    split
    · rfl
    · rw [Option.map_map, Option.map_map]
      rfl

theorem size_lowered (cs : List Char) : size (lowered cs) = size cs := by
  rw [size, lowered, ← map_lowerByte_spell, List.length_map]
  rfl

theorem find?_suffix (fileName suffix : List Char) :
    Bytes.find? ((spell suffix).map lowerByte) ((spell fileName).map lowerByte) =
      (before? (leads suffix) fileName).map size := by
  rw [map_lowerByte_spell, map_lowerByte_spell, find?_spell, ← lowered, ← lowered,
    before?_lowered, Option.map_map]
  exact congrArg (Option.map · _) (funext size_lowered)

theorem isBoundary_of_find? {fileName suffix : List Char} {i : Nat}
    (h : Bytes.find? ((spell suffix).map lowerByte) ((spell fileName).map lowerByte) = some i) :
    isBoundary (spell fileName) i = true := by
  rw [find?_suffix] at h
  obtain ⟨v, hv, rfl⟩ := Option.map_eq_some_iff.mp h
  exact isBoundary_size (prefix_of_before? hv)

theorem stem?_spell (fileName suffix : List Char) :
    stem? (spell fileName) (spell suffix) = some (spell (stemOf fileName suffix)) := by
  rw [stem?, find?_suffix, stemOf]
  cases h : before? (leads suffix) fileName with
  | none => rfl
  | some v =>
    obtain ⟨w, rfl⟩ := prefix_of_before? h
    exact slice?_spell [] v w

end Facts

namespace Controller.Parameter

variable {n : Nesting}

/-- The ends of the pieces of a list, for a reader that has come to the offset `i` of a piece that
begins at `start`. -/
def rangesFrom (n : Nesting) (start i : Nat) : List Char → List (Nat × Nat)
  | [] => [(start, i)]
  | c :: cs =>
    if n.atTop && c == ',' then (start, i) :: rangesFrom n (i + 1) (i + c.utf8Size) cs
    else rangesFrom (n.step c) start (i + c.utf8Size) cs

def ranges (cs : List Char) : List (Nat × Nat) := rangesFrom {} 0 0 cs

/-- The pieces are what lies in their ranges, `u` being the pieces before and `p` what has been read
of the next one. -/
theorem map_slice?_rangesFrom (n : Nesting) (u p cs : List Char) :
    (rangesFrom n (size u) (size (u ++ p)) cs).map
        (fun r => slice? (spell (u ++ p ++ cs)) r.1 r.2) =
      (glue p (splitFrom n cs)).map fun q => some (spell q) := by
  induction cs generalizing n u p with
  | nil =>
    rw [rangesFrom, List.map_singleton, slice?_spell, splitFrom, glue, List.append_nil]
    rfl
  | cons c cs ih =>
    have hc : size (u ++ p) + c.utf8Size = size (u ++ p ++ [c]) := by
      rw [size_append (u ++ p), size_singleton]
    have hs : u ++ p ++ c :: cs = u ++ p ++ [c] ++ cs := by simp
    cases h : n.atTop && c == ',' with
    | true =>
      obtain ⟨-, he⟩ := Bool.and_eq_true_iff.mp h
      obtain rfl := eq_of_beq he
      have hi := ih n (u ++ p ++ [',']) []
      rw [List.append_nil, glue_nil (splitFrom_ne_nil n cs), ← hs, ← hc] at hi
      rw [rangesFrom, if_pos h, List.map_cons, slice?_spell, splitFrom, if_pos h, glue,
        List.append_nil, List.map_cons, ← hi]
      rfl
    | false =>
      have hi := ih (n.step c) u (p ++ [c])
      rw [← List.append_assoc, ← hs] at hi
      rw [rangesFrom, if_neg (Bool.eq_false_iff.mp h), hc, hi, splitFrom_cons h, glue_glue]

theorem pairwise_rangesFrom (n : Nesting) {start i : Nat} (h : start ≤ i) (cs : List Char) :
    (∀ r ∈ rangesFrom n start i cs, start ≤ r.1) ∧
      (rangesFrom n start i cs).Pairwise fun r r' => r.2 < r'.1 := by
  induction cs generalizing n start i with
  | nil => exact ⟨List.forall_mem_singleton.mpr (Nat.le_refl _), List.pairwise_singleton _ _⟩
  | cons c cs ih =>
    have hc := c.utf8Size_pos
    rw [rangesFrom]
    split
    · have hi : i + 1 ≤ i + c.utf8Size := by omega
      obtain ⟨hb, hp⟩ := ih n hi
      refine ⟨List.forall_mem_cons.mpr ⟨Nat.le_refl _, fun r hr => ?_⟩,
        List.pairwise_cons.mpr ⟨hb, hp⟩⟩
      exact Nat.le_trans (by omega) (hb r hr)
    · exact ih _ (by omega)

theorem bounds_of_mem_ranges {raw : List Char} {r : Nat × Nat} (hr : r ∈ ranges raw) :
    r.1 ≤ r.2 ∧ isBoundary (spell raw) r.1 = true ∧ isBoundary (spell raw) r.2 = true := by
  have hs : (ranges raw).map (fun r => slice? (spell raw) r.1 r.2) = _ :=
    map_slice?_rangesFrom {} [] [] raw
  have hm := List.mem_map_of_mem (f := fun r => slice? (spell raw) r.1 r.2) hr
  rw [hs] at hm
  obtain ⟨q, -, hq⟩ := List.mem_map.mp hm
  rw [slice?] at hq
  split at hq
  · assumption
  · cases hq

end Controller.Parameter

open Controller.Parameter

/-- No cut fails, whatever the source, the file name, the suffix and the list of parameters are, and
whatever pattern finds the headers of methods. -/
theorem offsets_valid :
    (∀ (d : Dialect) (f : Facts) (source : String) (found : List Match),
      IsScan source.toList found →
        let ms := found.filterMap Method.ofMatch?
        let hs := ms.map (Method.header source.toList)
        Method.Header.InOrder (encode source) hs ∧
          Method.Header.endpoints? d f (encode source) hs = some (Method.endpoints d f ms)) ∧
    (∀ (d : Dialect) (f : Facts) (source : String),
      IsScan source.toList (d.methodHeader.findAll source.toList) ∧
        f.actions? d source = some (f.actions d source.toList)) ∧
    (∀ fileName suffix : String,
      (∀ i, Bytes.find? ((encode suffix).map lowerByte) ((encode fileName).map lowerByte) = some i →
        isBoundary (encode fileName) i = true) ∧
      Facts.stem? (encode fileName) (encode suffix) =
        some (spell (Facts.stemOf fileName.toList suffix.toList))) ∧
    ∀ raw : String,
      (∀ r ∈ ranges raw.toList, r.1 ≤ r.2 ∧ isBoundary (encode raw) r.1 = true ∧
        isBoundary (encode raw) r.2 = true) ∧
      ((ranges raw.toList).Pairwise fun r r' => r.2 < r'.1) ∧
      (ranges raw.toList).map (fun r => slice? (encode raw) r.1 r.2) =
        (split raw.toList).map fun p => some (spell p) := by
  have hs : ∀ (d : Dialect) (f : Facts) (source : String) (found : List Match),
      IsScan source.toList found →
        Method.Header.endpoints? d f (encode source)
          ((found.filterMap Method.ofMatch?).map (Method.header source.toList)) =
            some (Method.endpoints d f (found.filterMap Method.ofMatch?)) := by
    intro d f source found h
    apply Method.Header.endpoints?_map_header d f _ h.pairwise
    intro m hm
    exact (h.reaches hm).1.trans (h.reaches hm).2
  refine ⟨fun d f source found h => ⟨h.inOrder, hs d f source found h⟩, ?_, ?_, ?_⟩
  · intro d f source
    have h := isScan_findAll d.methodHeader source.toList
    exact ⟨h, hs d f source _ h⟩
  · intro fileName suffix
    exact ⟨fun i => Facts.isBoundary_of_find?, Facts.stem?_spell _ _⟩
  · intro raw
    refine ⟨fun r => bounds_of_mem_ranges, (pairwise_rangesFrom {} (Nat.le_refl 0) _).2, ?_⟩
    have h := map_slice?_rangesFrom {} [] [] raw.toList
    rwa [glue_nil (splitFrom_ne_nil {} _)] at h

/-- A pattern that takes the empty text as well, and then without a name; a suffix behind letters of
several bytes; brackets and quotations that are not closed. -/
theorem offsets_valid_of_empty_matches :
    let name := Pattern.group 3 (.plus true (.one .word))
    let header := Pattern.alt (.seq (.char '@') (.seq name (.group 4 (.star true (.char '-'))))) .empty
    let d : Dialect := { Dialect.ofConventions {} with methodHeader := header }
    let source := "é@aAction-é §@help @bAction$this->setBase"
    let found := d.methodHeader.findAll source.toList
    let ms := found.filterMap Method.ofMatch?
    let hs := ms.map (Method.header source.toList)
    let fileName := "ẞİFooCONTROLLER.PHP"
    let suffix := "Controller.php"
    let raw := "é)] $a = \"),(\", array &$b, ...$c = 'x, $d"
    IsScan source.toList found ∧ ms.length < found.length ∧
      hs.map (fun h => (h.start, h.stop)) = [(2, 11), (16, 21), (22, 30)] ∧
      (Method.Header.endpoints? d {} (encode source) hs).map
        (List.map fun e => (e.command, e.verb)) = some [("a", .get), ("b", .post)] ∧
      Bytes.find? ((encode suffix).map lowerByte) ((encode fileName).map lowerByte) = some 8 ∧
      isBoundary (encode fileName) 8 = true ∧
      ranges raw.toList = [(0, 15), (16, 26), (27, 42)] ∧ isBoundary (encode raw) 27 = true := by
  intro name header d source found ms hs fileName suffix raw
  obtain ⟨hm, hd, hf, hr⟩ := offsets_valid
  have hscan : IsScan source.toList found := (hd d {} source).1
  have hfind : Bytes.find? ((encode suffix).map lowerByte) ((encode fileName).map lowerByte) =
      some 8 := by decide +kernel
  have hranges : ranges raw.toList = [(0, 15), (16, 26), (27, 42)] := by decide +kernel
  have hlast : (27, 42) ∈ ranges raw.toList := by
    rw [hranges]
    decide
  refine ⟨hscan, by decide +kernel, by decide +kernel, ?_, hfind, (hf fileName suffix).1 8 hfind,
    hranges, ((hr raw).1 _ hlast).2.1⟩
  rw [(hm d {} source found hscan).2]
  decide +kernel

end EndpointCatalog
