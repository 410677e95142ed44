import EndpointCatalog.Proofs.Json.Collection
import EndpointCatalog.Proofs.Json.Quoted
import EndpointCatalog.Proofs.Json.Value

namespace EndpointCatalog.Json

open Text.Numeral Number

variable {c : Char} {v : Value} {vs : List Value} {es : List (String × Value)}
  {cs rest : List Char} {d : Nat}

mutual

/-- Whether a value has no floating number in it. -/
def Value.isWhole : Value → Bool
  | .null | .bool _ | .integer _ | .text _ => true
  | .float _ => false
  | .list vs => areWhole vs
  | .fields es => haveWhole es

def areWhole : List Value → Bool
  | [] => true
  | v :: vs => v.isWhole && areWhole vs

def haveWhole : List (String × Value) → Bool
  | [] => true
  | (_, v) :: es => v.isWhole && haveWhole es

end

theorem isWhole_of_areWhole (h : areWhole vs = true) : ∀ v ∈ vs, v.isWhole = true := by
  induction vs with
  | nil => exact List.forall_mem_nil _
  | cons v vs ih =>
    rw [areWhole, Bool.and_eq_true_iff] at h
    exact List.forall_mem_cons.mpr ⟨h.1, ih h.2⟩

theorem isWhole_of_haveWhole (h : haveWhole es = true) : ∀ e ∈ es, e.2.isWhole = true := by
  induction es with
  | nil => exact List.forall_mem_nil _
  | cons e es ih =>
    rw [haveWhole, Bool.and_eq_true_iff] at h
    exact List.forall_mem_cons.mpr ⟨h.1, ih h.2⟩

def brackets : List Char := ['[', ']', '{', '}']

theorem opens_cons {bracket : Char} (hb : bracket ∈ brackets) (hc : isBlank c = false)
    (hn : c ∉ brackets) (cs : List Char) : Opens bracket (c :: cs) := by
  refine ⟨c, cs, rfl, hc, ?_⟩
  rintro rfl
  exact hn hb

def isNumeric (c : Char) : Bool := c == '-' || c.isDigit

theorem not_mem_of_isNumeric (h : isNumeric c = true) (hs : cs.any isNumeric = false) : c ∉ cs :=
  fun hc => List.any_eq_false.mp hs c hc h

theorem isBlank_of_isNumeric (h : isNumeric c = true) : isBlank c = false := by
  have hn : c ∉ [' ', '\n', '\t', '\r'] := not_mem_of_isNumeric h rfl
  simpa [isBlank, and_assoc] using hn

theorem exists_writeInteger_eq (n : Int) :
    ∃ c cs, writeInteger n = c :: cs ∧ isNumeric c = true := by
  rw [writeInteger]
  split
  · exact ⟨'-', _, rfl, rfl⟩
  · obtain ⟨c, cs, hc, hd⟩ := exists_toDigits_eq_cons n.natAbs
    exact ⟨c, cs, hc, Bool.or_eq_true_iff.mpr (.inr hd)⟩

theorem opens_write_of_isScalar {bracket : Char} (hb : bracket ∈ brackets) (h : IsScalar v)
    (hw : v.isWhole = true) (level : Nat) : Opens bracket (write level v) := by
  cases h with
  | null => exact opens_cons hb rfl (by decide) _
  | bool b => cases b <;> exact opens_cons hb rfl (by decide) _
  | number h =>
    cases h with
    | @integer n h =>
      obtain ⟨c, cs, hc, hn⟩ := exists_writeInteger_eq n
      rw [write, hc]
      exact opens_cons hb (isBlank_of_isNumeric hn) (not_mem_of_isNumeric hn rfl) cs
    | float x => exact absurd hw Bool.false_ne_true
  | text s => exact opens_cons hb rfl (by decide) _

theorem opens_write (hr : IsRead d v) (hw : v.isWhole = true) (level : Nat) :
    Opens ']' (write level v) := by
  cases hr with
  | scalar h => exact opens_write_of_isScalar (by decide) h hw level
  | @list _ vs _ => cases vs <;> exact ⟨'[', _, rfl, rfl, by decide⟩
  | @fields _ es _ _ => cases es <;> exact ⟨'{', _, rfl, rfl, by decide⟩

theorem value?_of_opens (hl : Opens '[' cs) (hf : Opens '{' cs) (d : Nat) (rest : List Char) :
    value? d (cs ++ rest) = scalar? (cs ++ rest) := by
  obtain ⟨c, cs, rfl, -, hl⟩ := hl
  obtain ⟨_, _, ⟨⟩, -, hf⟩ := hf
  cases d with
  | zero => rfl
  | succ d =>
    rw [value?.eq_def]
    dsimp only [List.cons_append]
    split
    · rename_i h
      exact absurd (List.cons.inj h).1 hl
    · rename_i h
      exact absurd (List.cons.inj h).1 hf
    · rfl

theorem word?_cons_of_not_mem (h : c ∉ ['n', 't', 'f']) (cs : List Char) : word? (c :: cs) = none := by
  have hw : ∀ p ∈ words, ∃ d ds, p.1 = d :: ds ∧ d ∈ ['n', 't', 'f'] := by
    intro p hp
    simp only [words, List.mem_cons, List.not_mem_nil, or_false] at hp
    obtain rfl | rfl | rfl := hp
    all_goals exact ⟨_, _, rfl, by decide⟩
  rw [word?, List.findSome?_eq_none_iff]
  intro p hp
  obtain ⟨d, ds, hd, hm⟩ := hw p hp
  refine if_neg fun hc => ?_
  rw [hd, List.isPrefixOf_iff_prefix, List.cons_prefix_cons] at hc
  exact h (hc.1 ▸ hm)

theorem scalar?_writeInteger {n : Int} (h : IsHeld n) (hr : Ends rest) :
    scalar? (writeInteger n ++ rest) = some (.integer n, rest) := by
  obtain ⟨c, cs, hc, hn⟩ := exists_writeInteger_eq n
  have hw : word? (writeInteger n ++ rest) = none := by
    rw [hc]
    exact word?_cons_of_not_mem (not_mem_of_isNumeric hn rfl) (cs ++ rest)
  rw [scalar?, hw, Option.none_or, read?_writeInteger h hr]
  rw [hc]
  rintro _ ⟨⟩
  cases hn

theorem scalar?_write (h : IsScalar v) (hw : v.isWhole = true) (level : Nat) (hr : Ends rest) :
    scalar? (write level v ++ rest) = some (v, rest) := by
  cases h with
  | null => rfl
  | bool b => cases b <;> rfl
  | number h =>
    cases h with
    | integer h => exact scalar?_writeInteger h hr
    | float x => exact absurd hw Bool.false_ne_true
  | text s =>
    rw [write, Quoted.write, List.append_assoc, List.cons_append, scalar?, List.singleton_append,
      Quoted.read?_flatMap_writeChar, Option.map_some]
    dsimp only
    rw [String.ofList_toList]

def writeEntry (level : Nat) (e : String × Value) : List Char :=
  Quoted.write e.1.toList ++ ':' :: ' ' :: write level e.2

theorem writeItems_eq_lines (level : Nat) (vs : List Value) :
    writeItems level vs = lines level (write level) vs := by
  induction vs with
  | nil => rfl
  | cons v vs ih =>
    rw [writeItems, ih]
    rfl

theorem writeEntries_eq_lines (level : Nat) (es : List (String × Value)) :
    writeEntries level es = lines level (writeEntry level) es := by
  induction es with
  | nil => rfl
  | cons e es ih =>
    rw [writeEntries, ih, lines, lines, List.flatMap_cons, writeEntry]
    simp only [List.append_assoc, List.cons_append]

theorem write_list_cons (level : Nat) (v : Value) (vs : List Value) (rest : List Char) :
    write level (.list (v :: vs)) ++ rest = '[' :: (newLine (level + 1) ++ (write (level + 1) v ++
      (lines (level + 1) (write (level + 1)) vs ++ (newLine level ++ ']' :: rest)))) := by
  rw [write, writeItems_eq_lines]
  simp only [List.append_assoc, List.cons_append, List.nil_append]

theorem write_fields_cons (level : Nat) (e : String × Value) (es : List (String × Value))
    (rest : List Char) :
    write level (.fields (e :: es)) ++ rest = '{' :: (newLine (level + 1) ++
      (writeEntry (level + 1) e ++
        (lines (level + 1) (writeEntry (level + 1)) es ++ (newLine level ++ '}' :: rest)))) := by
  rw [write, writeEntries_eq_lines, writeEntry]
  simp only [List.append_assoc, List.cons_append, List.nil_append]

theorem field?_of_name {read? : Reader Value} {name cs' : List Char}
    (h : Quoted.read? cs = some (name, ':' :: cs')) : field? read? ('"' :: cs) =
      (read? (skipBlanks cs')).map fun (v, rest) => ((String.ofList name, v), rest) := by
  rw [field?, h]
  exact Option.map_eq_bind.symm

theorem field?_writeEntry {read? : Reader Value} {level : Nat} {e : String × Value}
    (ho : Opens ']' (write level e.2)) (h : read? (write level e.2 ++ rest) = some (e.2, rest)) :
    field? read? (writeEntry level e ++ rest) = some (e, rest) := by
  have hs : writeEntry level e ++ rest = '"' :: (e.1.toList.flatMap Quoted.writeChar ++
      '"' :: ':' :: ' ' :: (write level e.2 ++ rest)) := by
    simp only [writeEntry, Quoted.write, List.append_assoc, List.cons_append, List.nil_append]
  have hb : skipBlanks (' ' :: (write level e.2 ++ rest)) = write level e.2 ++ rest :=
    skipBlanks_of_opens ho rest
  rw [hs, field?_of_name (Quoted.read?_flatMap_writeChar _ _), hb, h, Option.map_some,
    String.ofList_toList]

theorem value?_list (d : Nat) (cs : List Char) : value? (d + 1) ('[' :: cs) =
    (collection? (value? d) ']' cs).map fun (vs, rest) => (.list vs, rest) := rfl

theorem value?_fields (d : Nat) (cs : List Char) : value? (d + 1) ('{' :: cs) =
    (collection? (field? (value? d)) '}' cs).map fun (es, rest) =>
      (.fields (es.foldl (fun fs e => insert e.1 e.2 fs) []), rest) := rfl

/-- A value that was read, and has no floating number in it, is read back from what is written for
it. -/
theorem value?_write (hr : IsRead d v) (hw : v.isWhole = true) (level : Nat) (he : Ends rest) :
    value? d (write level v ++ rest) = some (v, rest) := by
  induction hr generalizing level rest with
  | @scalar d v h =>
    have hl : Opens '[' (write level v) := opens_write_of_isScalar (by decide) h hw level
    have hf : Opens '{' (write level v) := opens_write_of_isScalar (by decide) h hw level
    rw [value?_of_opens hl hf, scalar?_write h hw level he]
  | @list d vs h ih =>
    have hw := isWhole_of_areWhole hw
    cases vs with
    | nil => rfl
    | cons v vs =>
      have hb : ∀ y ∈ v :: vs, ReadsBack (value? d) ']' (write (level + 1)) y := fun y hy =>
        ⟨opens_write (h y hy) (hw y hy) (level + 1), fun _ => ih y hy (hw y hy) (level + 1)⟩
      rw [write_list_cons, value?_list, collection?_lines (.inl rfl) hb, Option.map_some]
  | @fields d es hs h ih =>
    have hw := isWhole_of_haveWhole hw
    cases es with
    | nil => rfl
    | cons e es =>
      have hb : ∀ y ∈ e :: es, ReadsBack (field? (value? d)) '}' (writeEntry (level + 1)) y := by
        intro y hy
        refine ⟨⟨'"', _, rfl, rfl, by decide⟩, fun _ hy' => ?_⟩
        exact field?_writeEntry (opens_write (h y hy) (hw y hy) (level + 1))
          (ih y hy (hw y hy) (level + 1) hy')
      have hf : (e :: es).foldl (fun fs e => insert e.1 e.2 fs) [] = e :: es :=
        foldl_insert_of_isSorted hs
      rw [write_fields_cons, value?_fields, collection?_lines (.inr rfl) hb, Option.map_some]
      dsimp only
      rw [hf]

theorem parse?_write (hr : IsRead depthLimit v) (hw : v.isWhole = true) (he : Ends rest)
    (hb : skipBlanks rest = []) : parse? (String.ofList (write 0 v ++ rest)) = some v := by
  rw [parse?, String.toList_ofList, skipBlanks_of_opens (opens_write hr hw 0),
    value?_write hr hw 0 he]
  dsimp only [bind, Option.bind_some]
  rw [hb]
  rfl

theorem parse?_pretty (hr : IsRead depthLimit v) (hw : v.isWhole = true) :
    parse? v.pretty = some v := by
  have he : Ends [] := by rintro _ ⟨⟩
  have hp := parse?_write hr hw he rfl
  rwa [List.append_nil] at hp

theorem parse?_pretty_newLine (hr : IsRead depthLimit v) (hw : v.isWhole = true) :
    parse? (v.pretty ++ "\n") = some v := by
  have he : Ends ['\n'] := by
    rintro _ ⟨⟩
    decide
  have hp := parse?_write hr hw he rfl
  rwa [String.ofList_append] at hp

end EndpointCatalog.Json
