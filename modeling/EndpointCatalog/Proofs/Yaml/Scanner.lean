import EndpointCatalog.Yaml.Token
import EndpointCatalog.Proofs.Yaml.Input

namespace EndpointCatalog.Yaml.Scanner

open Quoted

theorem toNextFrom_spaces (flow allowed : Bool) (m : Mark) (j : Nat) (cs : List Char) :
    toNextFrom flow allowed false m (spaces j ++ cs) =
      toNextFrom flow allowed false (m.nextBy j) cs := by
  induction j generalizing m with
  | zero => rfl
  | succ j ih =>
    rw [spaces_succ, List.cons_append, toNextFrom, ← Mark.next_nextBy, ← ih]
    simp [atReturn, isBreak]

theorem toNextFrom_break (allowed : Bool) (m : Mark) (cs : List Char) :
    toNextFrom false allowed false m ('\n' :: cs) = toNextFrom false true false m.newLine cs := by
  rw [toNextFrom]
  simp [atReturn, isBreak]

/-- A character that starts a token. -/
structure Starts (c : Char) : Prop where
  isBlank : isBlank c = false
  isBreak : isBreak c = false
  ne_comment : c ≠ '#'
  ne_mark : c ≠ '\uFEFF'

theorem Starts.of_startsLine {c : Char} {cs : List Char} (h : startsLine (c :: cs)) : Starts c where
  isBlank := (isBlank_isBreak_of_startsLine h).1
  isBreak := (isBlank_isBreak_of_startsLine h).2
  ne_comment := by
    rintro rfl
    exact absurd (h _ rfl) (by decide)
  ne_mark := by
    rintro rfl
    exact absurd (h _ rfl) (by decide)

theorem toNextFrom_starts {c : Char} (hc : Starts c) (flow allowed : Bool) (m : Mark)
    (cs : List Char) : toNextFrom flow allowed false m (c :: cs) = (⟨m, c :: cs⟩, allowed) := by
  have hs := hc.isBlank
  simp only [Yaml.isBlank, Bool.or_eq_false_iff] at hs
  rw [toNextFrom, atReturn_of_isBreak_eq_false hc.isBreak, hc.isBreak, hs.1, hs.2]
  simp [hc.ne_comment, hc.ne_mark]

theorem run?_congr {s t : Scanner} (h : s.toNext = t.toNext) (n : Nat) : run? n s = run? n t := by
  cases n with
  | zero => rfl
  | succ n => rw [run?, run?, h]

/-- A scanner goes on to another one in no more steps than characters are read. -/
def Steps (s t : Scanner) : Prop :=
  ∃ k, k + t.input.rest.length ≤ s.input.rest.length ∧ ∀ n, run? (n + k) s = run? n t

namespace Steps

theorem refl (s : Scanner) : Steps s s := ⟨0, by omega, fun _ => rfl⟩

theorem trans {s t u : Scanner} (h₁ : Steps s t) (h₂ : Steps t u) : Steps s u := by
  obtain ⟨a, ha, hs⟩ := h₁
  obtain ⟨b, hb, ht⟩ := h₂
  refine ⟨b + a, by omega, fun n => ?_⟩
  rw [← Nat.add_assoc, hs, ht]

theorem token {s s₁ s₂ t u : Scanner} {c : Char} {cs : List Char}
    (hn : s.toNext.dropStale? = some s₁) (hu : s₁.unroll s₁.column = s₂)
    (hr : s₂.input.rest = c :: cs) (ht : s₂.token? c cs = some t) (hs : t.toNext = u.toNext)
    (hl : u.input.rest.length < s.input.rest.length) : Steps s u := by
  refine ⟨1, by omega, fun n => ?_⟩
  rw [run?, hn]
  simp only [Option.bind_eq_bind, Option.bind_some, hu, hr, ht]
  exact run?_congr hs n

theorem of_toNext {s t : Scanner} (h : s.toNext = t.toNext)
    (hl : t.input.rest.length ≤ s.input.rest.length) : Steps s t :=
  ⟨0, by omega, run?_congr h⟩

theorem run?_eq {s t : Scanner} {ts : List Token} (h : Steps s t) (ht : ∀ n, run? (n + 1) t = some ts) :
    run? (s.input.rest.length + 1) s = some ts := by
  obtain ⟨k, hk, hr⟩ := h
  have he : s.input.rest.length + 1 = (s.input.rest.length - k + 1) + k := by omega
  rw [he, hr, ht]

end Steps

theorem required_none : ∀ k ∈ (none : Option KeyPlace), k.required = false := fun _ h => by
  cases h

/-- A scanner outside flow collections; `is` holds the indentations, the innermost first. -/
def block (m : Mark) (cs : List Char) (ts : List Token) (is : List Int) (allowed : Bool)
    (k? : Option KeyPlace) : Scanner where
  input := ⟨m, cs⟩
  tokens := ts
  count := ts.length
  indent := is.headD (-1)
  indents := is.tail
  keyAllowed := allowed
  keys := [k?]

section

variable (m : Mark) (cs : List Char) (ts : List Token) (is : List Int) (allowed : Bool)
  (k? : Option KeyPlace)

theorem toNext_block :
    (block m cs ts is allowed k?).toNext =
      let r := toNextFrom false allowed false m cs
      block r.1.mark r.1.rest ts is r.2 k? := rfl

theorem toNext_spaces (j : Nat) :
    (block m (spaces j ++ cs) ts is allowed k?).toNext =
      (block (m.nextBy j) cs ts is allowed k?).toNext := by
  rw [toNext_block, toNext_block, toNextFrom_spaces]

theorem toNext_break :
    (block m ('\n' :: cs) ts is allowed k?).toNext =
      (block m.newLine cs ts is true k?).toNext := by
  rw [toNext_block, toNext_block, toNextFrom_break]

theorem toNext_starts {c : Char} (hc : Starts c) :
    (block m (c :: cs) ts is allowed k?).toNext = block m (c :: cs) ts is allowed k? := by
  rw [toNext_block, toNextFrom_starts hc]

/-- A key place where something else than a key can stand may be given up. -/
theorem dropStale?_block (h : ∀ k ∈ k?, k.required = false) :
    ∃ l? : Option KeyPlace, (∀ l ∈ l?, l.required = false) ∧
      (block m cs ts is allowed k?).dropStale? = some (block m cs ts is allowed l?) := by
  refine ⟨k?.filter (!isStale m ·), ?_, ?_⟩
  · intro l hl
    obtain ⟨hl, -⟩ := Option.mem_filter_iff.mp hl
    exact h l hl
  cases k? with
  | none => rfl
  | some k => simp [dropStale?, block, h k rfl]

theorem dropStale?_fresh {k : KeyPlace} (h : isStale m k = false) :
    (block m cs ts is allowed (some k)).dropStale? = some (block m cs ts is allowed (some k)) := by
  simp [dropStale?, block, h]

theorem unroll_block {i : Int} (hi : i ≤ m.column) :
    (block m cs ts (i :: is) allowed k?).unroll m.column = block m cs ts (i :: is) allowed k? := by
  have hc : ¬ (m.column : Int) < i := Int.not_lt.mpr hi
  cases is with
  | nil => rfl
  | cons j is => simp [unroll, inFlow, block, closeTo, hc]

theorem unroll_close {i j : Int} (hi : m.column < i) (hj : j ≤ m.column) :
    (block m cs ts (i :: j :: is) allowed k?).unroll m.column =
      block m cs (.blockEnd :: ts) (j :: is) allowed k? := by
  have hc : ¬ (m.column : Int) < j := Int.not_lt.mpr hj
  cases is with
  | nil => simp [unroll, inFlow, block, closeTo, push, hi]
  | cons l is => simp [unroll, inFlow, block, closeTo, push, hi, hc]

theorem token?_dash :
    (block m ('-' :: ' ' :: cs) ts is true k?).token? '-' (' ' :: cs) =
      blockEntry? (block m ('-' :: ' ' :: cs) ts is true k?) := by
  simp [token?, atDocumentMark, atGap, isBlank]

theorem token?_colon (hc : atGap cs = true) :
    (block m (':' :: cs) ts is allowed k?).token? ':' cs =
      (block m (':' :: cs) ts is allowed k?).value? := by
  simp [token?, atDocumentMark, hc]

theorem blockEntry?_open {i : Int} (hi : i < m.column) (h : ∀ k ∈ k?, k.required = false) :
    blockEntry? (block m ('-' :: cs) ts (i :: is) true k?) =
      some (block m.next cs (.blockEntry :: .blockSequence :: ts) (m.column :: i :: is) true none) := by
  cases k? with
  | none =>
    simp [ blockEntry?, block, inFlow, roll, column, hi, insert, forgetKey?, allowKey, sign, skip,
      Input.skip, push, Mark.next_eq]
  | some k =>
    simp [ blockEntry?, block, inFlow, roll, column, hi, insert, forgetKey?, allowKey, sign, skip,
      Input.skip, push, Mark.next_eq, h k rfl]

theorem blockEntry?_next {i : Int} (hi : m.column ≤ i) (h : ∀ k ∈ k?, k.required = false) :
    blockEntry? (block m ('-' :: cs) ts (i :: is) true k?) =
      some (block m.next cs (.blockEntry :: ts) (i :: is) true none) := by
  have hc : ¬ i < m.column := Int.not_lt.mpr hi
  cases k? with
  | none =>
    simp [ blockEntry?, block, inFlow, roll, column, hc, forgetKey?, allowKey, sign, skip,
      Input.skip, push, Mark.next_eq]
  | some k =>
    simp [ blockEntry?, block, inFlow, roll, column, hc, forgetKey?, allowKey, sign, skip,
      Input.skip, push, Mark.next_eq, h k rfl]

theorem value?_open {k : KeyPlace} (hk : k.before = ts.length) {i : Int} (hi : i < k.mark.column)
    (t : Token) :
    (block m (':' :: cs) (t :: ts) (i :: is) allowed (some k)).value? =
      some (block m.next cs (.value :: t :: .key :: .blockMapping :: ts)
        (k.mark.column :: i :: is) false none) := by
  have h₁ : ts.length + 1 - ts.length = 1 := by omega
  have h₂ : ts.length + 1 + 1 - ts.length = 2 := by omega
  simp [value?, block, insert, roll, inFlow, sign, skip, Input.skip, push, Mark.next_eq, hi, hk, h₁,
    h₂]

theorem value?_next {k : KeyPlace} (hk : k.before = ts.length) {i : Int} (hi : k.mark.column ≤ i)
    (t : Token) :
    (block m (':' :: cs) (t :: ts) (i :: is) allowed (some k)).value? =
      some (block m.next cs (.value :: t :: .key :: ts) (i :: is) false none) := by
  have hc : ¬ i < k.mark.column := Int.not_lt.mpr hi
  have h₁ : ts.length + 1 - ts.length = 1 := by omega
  simp [value?, block, insert, roll, inFlow, sign, skip, Input.skip, push, Mark.next_eq, hc, hk, h₁]

theorem noteKey?_block (i : Int) (h : ∀ k ∈ k?, k.required = false) :
    (block m cs ts (i :: is) true k?).noteKey? =
      some (block m cs ts (i :: is) true (some ⟨m, ts.length, i == m.column⟩)) := by
  cases k? with
  | none => simp [noteKey?, forgetKey?, block, inFlow, column]
  | some k => simp [noteKey?, forgetKey?, block, inFlow, column, h k rfl]

/-- A scalar may be a key, but need not be one where it is not indented like the keys. -/
theorem noteKey?_inner {i : Int} (hi : i ≠ m.column) :
    ∃ l? : Option KeyPlace, (∀ l ∈ l?, l.required = false) ∧
      (block m cs ts (i :: is) allowed none).noteKey? =
        some (block m cs ts (i :: is) allowed l?) := by
  cases allowed with
  | false => exact ⟨none, required_none, rfl⟩
  | true =>
    refine ⟨_, fun l hl => ?_, noteKey?_block m cs ts is none i required_none⟩
    obtain rfl := Option.some.inj hl
    exact beq_eq_false_iff_ne.mpr hi

theorem plainScalar?_block {i : Int} {text : List Char} {broken : Bool} {j : Input}
    (hr : Plain.read? false (i + 1) ⟨m, cs⟩ = some (text, broken, j))
    {l? : Option KeyPlace}
    (hn : (block m cs ts (i :: is) allowed k?).noteKey? = some (block m cs ts (i :: is) allowed l?)) :
    (block m cs ts (i :: is) allowed k?).plainScalar? =
      some (block j.mark j.rest (.scalar true text :: ts) (i :: is) broken l?) := by
  rw [plainScalar?, hn]
  have hf : (block m cs ts (i :: is) allowed l?).inFlow = false := rfl
  have hi : (block m cs ts (i :: is) allowed l?).input = ⟨m, cs⟩ := rfl
  have hd : (block m cs ts (i :: is) allowed l?).indent = i := rfl
  simp only [Option.bind_eq_bind, Option.bind_some, hf, hi, hd, hr]
  rfl

theorem run?_end {i : Int} (hm : m.column = 0) (hi : 0 < i) (h : ∀ k ∈ k?, k.required = false)
    (n : Nat) :
    run? (n + 1) (block m [] ts [i, 0, -1] allowed k?) =
      some (.blockEnd :: .blockEnd :: ts) := by
  obtain ⟨l?, hl, hd⟩ := dropStale?_block m [] ts [i, 0, -1] allowed k? h
  have hn : (block m [] ts [i, 0, -1] allowed k?).toNext = block m [] ts [i, 0, -1] allowed k? := rfl
  have hc : (block m [] ts [i, 0, -1] allowed l?).column = m.column := rfl
  have hu := unroll_close m [] ts [-1] allowed l? (i := i) (j := 0) (by rw [hm]; exact hi)
    (Int.natCast_nonneg _)
  have hf : (block m [] (.blockEnd :: ts) [0, -1] allowed l?).finish?.map (·.tokens) =
      some (.blockEnd :: .blockEnd :: ts) := by
    cases l? with
    | none => simp [finish?, block, unroll, inFlow, closeTo, push, forgetKey?]
    | some k => simp [finish?, block, unroll, inFlow, closeTo, push, forgetKey?, hl k rfl]
  obtain ⟨s, hs, ht⟩ := Option.map_eq_some_iff.mp hf
  rw [run?, hn, hd]
  simp only [Option.bind_eq_bind, Option.bind_some, hc, hu, hs]
  exact congrArg some ht

end

end EndpointCatalog.Yaml.Scanner
