import EndpointCatalog.Credentials
import EndpointCatalog.Proofs.Overwriting
import EndpointCatalog.Proofs.Text.Canonical
import Mathlib.Data.List.DropRight

namespace EndpointCatalog

open Text Text.Search Text.Blank

namespace SecretFile

variable {tag : List Char}

/-- The last line of a text that begins with `tag`. -/
def lastLine? (tag text : String) : Option (List Char) :=
  ((text.toList.splitOn '\n').filter (tag.toList.isPrefixOf ·)).getLast?

/-- What stands behind `tag` on that line, without the carriage returns at its end. -/
def last? (tag text : String) : Option String :=
  (lastLine? tag text).map fun line =>
    String.ofList ((line.drop tag.length).rdropWhile (· = '\r'))

theorem trimReturns_append (ht : '\r' ∉ tag) (rest : List Char) :
    trimReturns (tag ++ rest) = tag ++ trimReturns rest := by
  have hr : tag.rdropWhile (· = '\r') = tag := by
    refine List.rdropWhile_eq_self_iff.mpr fun hl h => ht ?_
    rw [← of_decide_eq_true h]
    exact List.getLast_mem hl
  rw [trimReturns, trimReturns, List.reverse_append, List.dropWhile_append]
  split
  · rename_i h
    rw [List.isEmpty_iff.mp h, List.reverse_nil, List.append_nil]
    exact hr
  · rw [List.reverse_append, List.reverse_reverse]

theorem after?_trimReturns (ht : '\r' ∉ tag) (line : List Char) :
    after? tag (trimReturns line) =
      if tag.isPrefixOf line then some ((line.drop tag.length).rdropWhile (· = '\r')) else none := by
  split
  · rename_i h
    obtain ⟨rest, rfl⟩ := List.isPrefixOf_iff_prefix.mp h
    rw [after?_eq_some, trimReturns_append ht, List.drop_left]
    rfl
  · rename_i h
    rw [Option.eq_none_iff_forall_ne_some]
    intro rest hr
    refine h (List.isPrefixOf_iff_prefix.mpr ?_)
    have hp : trimReturns line <+: line := List.rdropWhile_prefix _ line
    exact List.IsPrefix.trans ⟨rest, (after?_eq_some.mp hr).symm⟩ hp

theorem readLine_eq (f : SecretFile) (line : List Char) :
    readLine f line =
      ⟨((after? "key=".toList line).map String.ofList).or f.key?,
        ((after? "secret=".toList line).map String.ofList).or f.secret?⟩ := by
  rw [readLine]
  cases hk : after? "key=".toList line with
  | none => cases after? "secret=".toList line <;> rfl
  | some r =>
    cases hs : after? "secret=".toList line with
    | none => rfl
    | some r' =>
      have h : 'k' = 's' :=
        (List.cons.inj ((after?_eq_some.mp hk).symm.trans (after?_eq_some.mp hs))).1
      exact absurd h (by decide)

theorem get_foldl_readLine (get : SecretFile → Option String) {tag : String}
    (ht : '\r' ∉ tag.toList)
    (h : ∀ f line, get (readLine f line) =
      ((after? tag.toList line).map String.ofList).or (get f))
    (text : String) (f : SecretFile) :
    get (((text.toList.splitOn '\n').map trimReturns).foldl readLine f) =
      (last? tag text).or (get f) := by
  rw [List.foldl_map, last?, lastLine?]
  refine Overwriting.get_foldl get (fun f line => ?_) _ f
  rw [h, after?_trimReturns ht, String.length_toList]
  split <;> rfl

/-- A text of one line tells nothing, and another one tells what its last lines say. -/
theorem parse?_eq (text : String) :
    parse? text = if '\n' ∈ text.toList then some ⟨last? "key=" text, last? "secret=" text⟩
      else none := by
  split
  · rename_i h
    obtain ⟨l, m, ls, hls⟩ := exists_splitOn_eq h
    have hf : parse? text =
        some (((text.toList.splitOn '\n').map trimReturns).foldl readLine {}) := by
      rw [parse?, hls]
    have hk : (((text.toList.splitOn '\n').map trimReturns).foldl readLine {}).key? =
        (last? "key=" text).or none :=
      get_foldl_readLine key? (by decide) (fun f line => by rw [readLine_eq]) text {}
    have hs : (((text.toList.splitOn '\n').map trimReturns).foldl readLine {}).secret? =
        (last? "secret=" text).or none :=
      get_foldl_readLine secret? (by decide) (fun f line => by rw [readLine_eq]) text {}
    rw [Option.or_none] at hk hs
    rw [hf, ← hk, ← hs]
  · rename_i h
    rw [parse?, List.splitOn_eq_singleton h]

/-- Whether a text says a value other than the empty one, or none while another one is given. -/
def IsSupplied (tag text given : String) : Prop :=
  (∃ line, lastLine? tag text = some line ∧ ∃ c ∈ line.drop tag.length, c ≠ '\r') ∨
    lastLine? tag text = none ∧ given ≠ ""

theorem getD_last?_ne_iff {tag text given : String} :
    (last? tag text).getD given ≠ "" ↔ IsSupplied tag text given := by
  rw [IsSupplied, last?]
  cases lastLine? tag text with
  | none => simp
  | some line =>
    have he : String.ofList ((line.drop tag.length).rdropWhile (· = '\r')) = "" ↔
        ∀ c ∈ line.drop tag.length, c = '\r' := by
      rw [String.ofList_eq_empty_iff, List.rdropWhile_eq_nil_iff]
      simp only [decide_eq_true_eq]
    rw [Option.map_some, Option.getD_some, Ne, he]
    simp

theorem getD_last?_of_none {tag text given : String} (h : lastLine? tag text = none) :
    (last? tag text).getD given = given := by
  rw [last?, h]
  rfl

end SecretFile

namespace Credentials

open SecretFile

variable (w : Workspace) (key? secret? : Option String) {p : Path} {text : String}

theorem isComplete_iff {c : Credentials} : c.isComplete = true ↔ c.key ≠ "" ∧ c.secret ≠ "" := by
  rw [isComplete, Bool.and_eq_true, bne_iff_ne, bne_iff_ne]

theorem resolve_of_isComplete {file? : Option Path}
    (h : file? = none ∨ key?.getD "" ≠ "" ∧ secret?.getD "" ≠ "") :
    resolve w key? secret? file? = .ok ⟨key?.getD "", secret?.getD ""⟩ := by
  obtain rfl | h := h
  · unfold resolve
    dsimp only
    cases (⟨key?.getD "", secret?.getD ""⟩ : Credentials).isComplete <;> rfl
  · have hc : (⟨key?.getD "", secret?.getD ""⟩ : Credentials).isComplete = true :=
      isComplete_iff.mpr h
    unfold resolve
    dsimp only
    rw [hc]

theorem resolve_of_not_isComplete (h : key?.getD "" = "" ∨ secret?.getD "" = "") (p : Path) :
    resolve w key? secret? (some p) =
      match w.readText p with
      | .error e => .error (.file p e)
      | .ok text =>
        if '\n' ∈ text.toList then
          .ok ⟨(last? "key=" text).getD (key?.getD ""), (last? "secret=" text).getD (secret?.getD "")⟩
        else .error (.secretFile p) := by
  have hc : (⟨key?.getD "", secret?.getD ""⟩ : Credentials).isComplete = false := by
    rw [Bool.eq_false_iff, Ne, isComplete_iff, ← not_or, not_not]
    exact h
  unfold resolve
  dsimp only
  rw [hc]
  dsimp only
  cases w.readText p with
  | error e => rfl
  | ok text =>
    dsimp only
    rw [parse?_eq]
    by_cases hn : '\n' ∈ text.toList
    · rw [if_pos hn, if_pos hn]
      rfl
    · rw [if_neg hn, if_neg hn]

/-- Values that are both given, or given without a file, are taken as they are, whatever the disk
holds. Otherwise the file has to be a text and have two lines at least; then each value is what
stands behind its tag on the last line that begins with it, and the given one without such a line. -/
theorem resolve_cases :
    (∀ file?, file? = none ∨ key?.getD "" ≠ "" ∧ secret?.getD "" ≠ "" →
      resolve w key? secret? file? = .ok ⟨key?.getD "", secret?.getD ""⟩) ∧
    ∀ p, key?.getD "" = "" ∨ secret?.getD "" = "" →
      ((∃ e, resolve w key? secret? (some p) = .error (.file p e)) ↔
        ¬ ∃ text, w.read p = .ok (Bytes.encode text)) ∧
      ∀ text, w.read p = .ok (Bytes.encode text) →
        (resolve w key? secret? (some p) = .error (.secretFile p) ↔ '\n' ∉ text.toList) ∧
        ('\n' ∈ text.toList → resolve w key? secret? (some p) =
          .ok ⟨(last? "key=" text).getD (key?.getD ""),
            (last? "secret=" text).getD (secret?.getD "")⟩) := by
  refine ⟨fun file? h => resolve_of_isComplete w key? secret? h, fun p h => ⟨?_, fun text ht => ?_⟩⟩
  · rw [← Workspace.readText_eq_error, resolve_of_not_isComplete w key? secret? h]
    cases w.readText p with
    | error e => exact iff_of_true ⟨e, rfl⟩ ⟨e, rfl⟩
    | ok text =>
      dsimp only
      split <;> exact iff_of_false nofun nofun
  · rw [resolve_of_not_isComplete w key? secret? h, Workspace.readText_eq_ok.mpr ht]
    dsimp only
    by_cases hn : '\n' ∈ text.toList
    · rw [if_pos hn]
      exact ⟨iff_of_false nofun (not_not_intro hn), fun _ => rfl⟩
    · rw [if_neg hn]
      exact ⟨iff_of_true rfl hn, fun h => absurd h hn⟩

/-- A key that is given gives way to that of the file where only the secret is missing. -/
theorem resolve_cases_repeated :
    let text := "secret=a\r\n# key=b\nkey=c\nkey=d=e\r\r\n"
    let w : Workspace := { tree := .dir [("f", .file (Bytes.encode text))] }
    ((some "k").getD "" ≠ "" ∧ (some "s").getD "" ≠ "") ∧ (none : Option String).getD "" = "" ∧
      w.read ⟨"f"⟩ = .ok (Bytes.encode text) ∧ '\n' ∈ text.toList ∧
      resolve w (some "k") (some "s") (some ⟨"f"⟩) = .ok ⟨"k", "s"⟩ ∧
      resolve w (some "k") none (some ⟨"f"⟩) = .ok ⟨"d=e", "a"⟩ := by
  intro text w
  have hg : (some "k").getD "" ≠ "" ∧ (some "s").getD "" ≠ "" := by decide
  have hr : w.read ⟨"f"⟩ = .ok (Bytes.encode text) := rfl
  have hn : '\n' ∈ text.toList := by decide
  refine ⟨hg, rfl, hr, hn, (resolve_cases w (some "k") (some "s")).1 _ (.inr hg), ?_⟩
  have h := (((resolve_cases w (some "k") none).2 ⟨"f"⟩ (.inr rfl)).2 text hr).2 hn
  exact h.trans (by decide +kernel)

/-- A file of two lines or more is not refused, and only what is supplied is not empty. -/
theorem resolve_supplied (h : key?.getD "" = "" ∨ secret?.getD "" = "")
    (hr : w.read p = .ok (Bytes.encode text)) :
    (resolve w key? secret? (some p) = .error (.secretFile p) ↔ '\n' ∉ text.toList) ∧
    (Fault.secretFile p).message =
      "Key/Secret file " ++ p.text ++ " must contain key= and secret= fields" ∧
    ('\n' ∈ text.toList → ∃ c, resolve w key? secret? (some p) = .ok c ∧
      (c.key ≠ "" ↔ IsSupplied "key=" text (key?.getD "")) ∧
      (c.secret ≠ "" ↔ IsSupplied "secret=" text (secret?.getD "")) ∧
      (lastLine? "key=" text = none → c.key = key?.getD "") ∧
      (lastLine? "secret=" text = none → c.secret = secret?.getD "")) := by
  rw [resolve_of_not_isComplete w key? secret? h, Workspace.readText_eq_ok.mpr hr]
  dsimp only
  refine ⟨?_, rfl, fun hn => ?_⟩
  · split
    · exact iff_of_false nofun (not_not_intro ‹_›)
    · exact iff_of_true rfl ‹_›
  · rw [if_pos hn]
    exact ⟨_, rfl, getD_last?_ne_iff, getD_last?_ne_iff, getD_last?_of_none, getD_last?_of_none⟩

/-- An empty line for the secret counts, although it comes behind a good one. -/
theorem resolve_supplied_empty :
    let text := "secret=s\nsecret=\r\n"
    let w : Workspace := { tree := .dir [("f", .file (Bytes.encode text))] }
    (none : Option String).getD "" = "" ∧ w.read ⟨"f"⟩ = .ok (Bytes.encode text) ∧
      '\n' ∈ text.toList ∧
      ∃ c, resolve w (some "k") none (some ⟨"f"⟩) = .ok c ∧ c.key = "k" ∧ ¬ c.secret ≠ "" := by
  intro text w
  have hr : w.read ⟨"f"⟩ = .ok (Bytes.encode text) := rfl
  have hn : '\n' ∈ text.toList := by decide
  obtain ⟨c, hc, -, hs, hk, -⟩ :=
    (resolve_supplied w (some "k") none (.inr rfl) hr).2.2 hn
  have hl : lastLine? "secret=" text = some "secret=\r".toList := by decide +kernel
  refine ⟨rfl, hr, hn, c, hc, hk (by decide +kernel), mt hs.mp ?_⟩
  rintro (⟨line, he, d, hd, hne⟩ | ⟨he, -⟩)
  · obtain rfl := Option.some.inj (hl.symm.trans he)
    obtain rfl := List.mem_singleton.mp hd
    exact hne rfl
  · cases hl.symm.trans he

/-- Two lines suffice, without a field in them, and an empty field takes the place of a value. -/
theorem resolve_empty :
    let w : Workspace := { tree := .dir [("a", .file (Bytes.encode "a\nb\n")),
      ("b", .file (Bytes.encode "key=\nsecret=s\n"))] }
    resolve w none none (some ⟨"a"⟩) = .ok ⟨"", ""⟩ ∧
      resolve w (some "k") none (some ⟨"b"⟩) = .ok ⟨"", "s"⟩ := by
  intro w
  have ha : w.readText ⟨"a"⟩ = .ok "a\nb\n" := Workspace.readText_eq_ok.mpr rfl
  have hb : w.readText ⟨"b"⟩ = .ok "key=\nsecret=s\n" := Workspace.readText_eq_ok.mpr rfl
  constructor
  · rw [resolve_of_not_isComplete w none none (.inl rfl), ha]
    decide +kernel
  · rw [resolve_of_not_isComplete w (some "k") none (.inr rfl), hb]
    decide +kernel

end Credentials

end EndpointCatalog
