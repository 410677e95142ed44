import EndpointCatalog.Proofs.Yaml.Table
import EndpointCatalog.Yaml.Schema

namespace EndpointCatalog.Yaml

open Scanner

def textNode (s : String) : Node := .scalar {} (isPlain s.toList) s.toList

def Cell.node : Cell → Node
  | text s => textNode s
  | texts ss => .list {} (ss.map textNode)

namespace Record

def entryNodes (e : String × Cell) : Node × Node := (.scalar {} true e.1.toList, e.2.node)

def node (r : Record) : Node := .fields {} (r.map entryNodes)

end Record

namespace Composer

def on (c : Composer) (ts : List Token) : Composer := { c with tokens := ts }

section

variable (c : Composer) (ts : List Token) {n : Nat} (block loose : Bool)

theorem node?_scalar (plain : Bool) (s : List Char) :
    node? (n + 1) block loose (c.on (.scalar plain s :: ts)) =
      some (.scalar {} plain s, c.on ts) := by
  rw [node?]
  rfl

theorem node?_empty :
    node? (n + 2) block loose (c.on (.flowSequence :: .flowSequenceEnd :: ts)) =
      some (.list {} [], c.on ts) := by
  rw [node?]
  rfl

theorem node?_loose :
    node? (n + 1) block true (c.on (.blockEntry :: ts)) =
      (looseItems? n (c.on (.blockEntry :: ts))).bind fun (vs, c) => some (.list {} vs, c) := by
  rw [node?]
  rfl

theorem node?_sequence :
    node? (n + 1) true loose (c.on (.blockSequence :: ts)) =
      (blockItems? n (c.on ts)).bind fun (vs, c) => some (.list {} vs, c) := by
  rw [node?]
  cases loose <;> rfl

theorem node?_mapping :
    node? (n + 1) true loose (c.on (.blockMapping :: ts)) =
      (blockEntries? n (c.on ts)).bind fun (es, c) => some (.fields {} es, c) := by
  rw [node?]
  cases loose <;> rfl

end

section

variable (c : Composer) (ts : List Token) {n : Nat}

theorem looseItems?_items (ss : List String) (hn : ss.length + 2 ≤ n)
    (ht : ts.head? ≠ some .blockEntry) :
    looseItems? n (c.on (Cell.itemTokens ss ++ ts)) = some (ss.map textNode, c.on ts) := by
  induction ss generalizing n with
  | nil =>
    obtain ⟨n, rfl⟩ : ∃ m, n = m + 1 := ⟨n - 1, by simp only [List.length_nil] at hn; omega⟩
    have hc : (c.on (Cell.itemTokens [] ++ ts)).next? = ts.head? := rfl
    rw [looseItems?, hc]
    split
    · rename_i h
      exact absurd h ht
    · rfl
  | cons s ss ih =>
    obtain ⟨n, rfl⟩ : ∃ m, n = m + 3 := ⟨n - 3, by simp only [List.length_cons] at hn; omega⟩
    have h := ih (n := n + 2) (by simp only [List.length_cons] at hn; omega)
    have hc : (c.on (Cell.itemTokens (s :: ss) ++ ts)).next? = some .blockEntry := rfl
    have hs : nodeOr? (n + 2) [.blockEntry, .key, .value, .blockEnd] true false
        (c.on (Cell.itemTokens (s :: ss) ++ ts)).skip =
          some (textNode s, c.on (Cell.itemTokens ss ++ ts)) :=
      node?_scalar c (Cell.itemTokens ss ++ ts) true false (isPlain s.toList) s.toList
    rw [looseItems?, hc]
    simp only [hs, h, Option.bind_eq_bind, Option.bind_some]
    rfl

theorem length_itemTokens (ss : List String) : (Cell.itemTokens ss).length = 2 * ss.length := by
  induction ss with
  | nil => rfl
  | cons s ss ih =>
    rw [Cell.itemTokens, List.flatMap_cons, List.length_append, ← Cell.itemTokens, ih]
    simp only [List.length_cons, List.length_nil]
    omega

theorem nodeOr?_cell (v : Cell) (hn : v.tokens.length + 4 ≤ n) (ht : ts.head? ≠ some .blockEntry) :
    nodeOr? n [.key, .value, .blockEnd] true true (c.on (v.tokens ++ ts)) =
      some (v.node, c.on ts) := by
  obtain ⟨n, rfl⟩ : ∃ m, n = m + 4 := ⟨n - 4, by omega⟩
  cases v with
  | text s => exact node?_scalar c ts true true (isPlain s.toList) s.toList
  | texts ss =>
    cases ss with
    | nil => exact node?_empty c ts true true
    | cons s ss =>
      have hl := length_itemTokens (s :: ss)
      have h := looseItems?_items c ts (n := n + 2) (s :: ss)
        (by simp only [Cell.tokens] at hn; omega) ht
      have he : nodeOr? (n + 4) [.key, .value, .blockEnd] true true
          (c.on (Cell.itemTokens (s :: ss) ++ ts)) =
            node? (n + 3) true true (c.on (Cell.itemTokens (s :: ss) ++ ts)) := rfl
      obtain ⟨ts', hts⟩ : ∃ ts', Cell.itemTokens (s :: ss) ++ ts = .blockEntry :: ts' := ⟨_, rfl⟩
      rw [Cell.tokens, he, hts, node?_loose, ← hts, h]
      rfl

theorem head?_entryTokens (es : Record) :
    (es.flatMap Record.entryTokens ++ .blockEnd :: ts).head? ≠ some .blockEntry := by
  cases es with
  | nil => simp
  | cons e es => simp [Record.entryTokens]

theorem blockEntries?_entries (es : Record)
    (hn : (es.flatMap Record.entryTokens).length + 5 ≤ n) :
    blockEntries? n (c.on (es.flatMap Record.entryTokens ++ .blockEnd :: ts)) =
      some (es.map Record.entryNodes, c.on ts) := by
  induction es generalizing n with
  | nil =>
    obtain ⟨n, rfl⟩ : ∃ m, n = m + 1 := ⟨n - 1, by omega⟩
    rfl
  | cons e es ih =>
    obtain ⟨n, rfl⟩ : ∃ m, n = m + 3 := ⟨n - 3, by omega⟩
    have hlen : e.2.tokens.length + 3 + (es.flatMap Record.entryTokens).length + 5 ≤ n + 3 := by
      simp only [List.flatMap_cons, List.length_append, Record.entryTokens, List.length_cons] at hn
      omega
    let rest := es.flatMap Record.entryTokens ++ .blockEnd :: ts
    have h := ih (n := n + 2) (by omega)
    have hv := nodeOr?_cell c rest (n := n + 2) e.2 (by omega) (head?_entryTokens ts es)
    have hk : nodeOr? (n + 2) [.key, .value, .blockEnd] true true
        (c.on (.scalar true e.1.toList :: .value :: e.2.tokens ++ rest)) =
          some (.scalar {} true e.1.toList, c.on (.value :: e.2.tokens ++ rest)) :=
      node?_scalar c _ true true true e.1.toList
    have hts : (e :: es).flatMap Record.entryTokens ++ .blockEnd :: ts =
        .key :: .scalar true e.1.toList :: .value :: e.2.tokens ++ rest := by
      simp [Record.entryTokens, rest]
    have hc : (c.on (.key :: .scalar true e.1.toList :: .value :: e.2.tokens ++ rest)).next? =
        some .key := rfl
    have hs : (c.on (.key :: .scalar true e.1.toList :: .value :: e.2.tokens ++ rest)).skip =
        c.on (.scalar true e.1.toList :: .value :: e.2.tokens ++ rest) := rfl
    have hc' : (c.on (.value :: e.2.tokens ++ rest)).next? = some .value := rfl
    have hs' : (c.on (.value :: e.2.tokens ++ rest)).skip = c.on (e.2.tokens ++ rest) := rfl
    rw [hts, blockEntries?, hc]
    simp only [hs, hk, hc', hs', hv, Option.bind_eq_bind, Option.bind_some, if_true, rest, h]
    rfl

theorem blockItems?_records (rs : List Record)
    (hn : (rs.flatMap Record.tokens).length + 8 ≤ n) :
    blockItems? n (c.on (rs.flatMap Record.tokens ++ .blockEnd :: ts)) =
      some (rs.map Record.node, c.on ts) := by
  induction rs generalizing n with
  | nil =>
    obtain ⟨n, rfl⟩ : ∃ m, n = m + 1 := ⟨n - 1, by omega⟩
    rfl
  | cons r rs ih =>
    obtain ⟨n, rfl⟩ : ∃ m, n = m + 3 := ⟨n - 3, by omega⟩
    have hlen : (r.flatMap Record.entryTokens).length + 3 + (rs.flatMap Record.tokens).length + 8 ≤
        n + 3 := by
      simp only [List.flatMap_cons, List.length_append, Record.tokens, List.length_cons,
        List.length_nil] at hn
      omega
    let rest := rs.flatMap Record.tokens ++ .blockEnd :: ts
    let entries := r.flatMap Record.entryTokens ++ .blockEnd :: rest
    have h := ih (n := n + 2) (by omega)
    have he := blockEntries?_entries c rest r (n := n) (by omega)
    have hts : (r :: rs).flatMap Record.tokens ++ .blockEnd :: ts =
        .blockEntry :: .blockMapping :: entries := by
      simp [Record.tokens, rest, entries]
    have hc : (c.on (.blockEntry :: .blockMapping :: entries)).next? = some .blockEntry := rfl
    have hs : nodeOr? (n + 2) [.blockEntry, .blockEnd] true false
        (c.on (.blockEntry :: .blockMapping :: entries)).skip =
          node? (n + 1) true false (c.on (.blockMapping :: entries)) := rfl
    rw [hts, blockItems?, hc]
    simp only [hs, node?_mapping, entries, he, Option.bind_eq_bind, Option.bind_some, rest, h]
    rfl

end

theorem document?_table (rs : List Record) :
    Composer.document? (Record.tableTokens rs) = some (some (.list {} (rs.map Record.node))) := by
  let c : Composer := { tokens := [], handles := usualHandles }
  let rest := rs.flatMap Record.tokens ++ [.blockEnd]
  have hts : Record.tableTokens rs = .blockSequence :: rest := rfl
  have h := blockItems?_records c [] (n := 8 * (Token.blockSequence :: rest).length + 7) rs (by
    simp only [rest, List.length_append, List.length_cons, List.length_nil]
    omega)
  have hn : node? (8 * (Token.blockSequence :: rest).length + 8) true false
      (c.on (.blockSequence :: rest)) = some (.list {} (rs.map Record.node), c.on []) := by
    rw [node?_sequence, h]
    rfl
  have hs : startsDocument (.blockSequence :: rest) = false := rfl
  have hc : (⟨.blockSequence :: rest, [], [] ++ usualHandles⟩ : Composer) =
      c.on (.blockSequence :: rest) := rfl
  rw [hts, document?]
  simp only [hs, List.isEmpty_cons, Bool.false_and, Bool.false_eq_true, if_false, Option.bind_eq_bind,
    Option.bind_some, hc, hn]
  rfl

end Composer

section

variable (rs : List Record)

theorem anchored_cell (v : Cell) : v.node.anchored = [] := by
  have h : ∀ ss : List String, Node.anchoredItems (ss.map textNode) = [] := fun ss => by
    induction ss with
    | nil => rfl
    | cons s ss ih =>
      rw [List.map_cons, Node.anchoredItems, ih]
      rfl
  cases v with
  | text s => rfl
  | texts ss =>
    rw [Cell.node, Node.anchored, h]
    rfl

theorem anchored_record (r : Record) : r.node.anchored = [] := by
  have h : ∀ es : Record, Node.anchoredEntries (es.map Record.entryNodes) = [] := fun es => by
    induction es with
    | nil => rfl
    | cons e es ih =>
      rw [List.map_cons, Record.entryNodes, Node.anchoredEntries, anchored_cell, ih]
      rfl
  rw [Record.node, Node.anchored, h]
  rfl

theorem anchoredItems_records : Node.anchoredItems (rs.map Record.node) = [] := by
  induction rs with
  | nil => rfl
  | cons r rs ih =>
    rw [List.map_cons, Node.anchoredItems, anchored_record, ih]
    rfl

theorem aliases_cell (d : Document) (n : Nat) (v : Cell) : d.aliases n v.node = 0 := by
  have ht : ∀ n s, d.aliases n (textNode s) = 0 := fun n s => by
    cases n <;> simp only [textNode, Document.aliases]
  have h : ∀ n (ss : List String), d.aliasesIn n (ss.map textNode) = 0 := fun n ss => by
    induction ss with
    | nil => simp only [List.map_nil, Document.aliasesIn]
    | cons s ss ih => rw [List.map_cons, Document.aliasesIn, ht, ih]
  cases v with
  | text s => exact ht n s
  | texts ss =>
    cases n with
    | zero => simp only [Cell.node, Document.aliases]
    | succ n => rw [Cell.node, Document.aliases, h]

theorem aliases_record (d : Document) (n : Nat) (r : Record) : d.aliases n r.node = 0 := by
  have ht : ∀ n s, d.aliases n (.scalar {} true s) = 0 := fun n s => by
    cases n <;> simp only [Document.aliases]
  have h : ∀ n (es : Record), d.aliasesAmong n (es.map Record.entryNodes) = 0 := fun n es => by
    induction es with
    | nil => simp only [List.map_nil, Document.aliasesAmong]
    | cons e es ih =>
      rw [List.map_cons, Record.entryNodes, Document.aliasesAmong, ht, aliases_cell, ih]
  cases n with
  | zero => simp only [Record.node, Document.aliases]
  | succ n => rw [Record.node, Document.aliases, h]

theorem aliasesIn_records (d : Document) (n : Nat) : d.aliasesIn n (rs.map Record.node) = 0 := by
  induction rs with
  | nil => simp only [List.map_nil, Document.aliasesIn]
  | cons r rs ih => rw [List.map_cons, Document.aliasesIn, aliases_record, ih]

end

def tableDocument (rs : List Record) : Document := ⟨some (.list {} (rs.map Record.node)), []⟩

/-- A written table is read as its records. -/
theorem document?_writeDocument {rs : List Record} (hrs : ∀ r ∈ rs, IsRecord r) :
    document? (Value.writeDocument (rs.map Record.toValue)) = some (tableDocument rs) := by
  have ha : ∀ rs : List Record, (Node.list {} (rs.map Record.node)).anchored = [] := fun rs => by
    rw [Node.anchored, anchoredItems_records]
    rfl
  cases rs with
  | nil =>
    have hw : Value.writeDocument [] = ['[', ']', '\n'] := rfl
    have ht : tokens? ['[', ']', '\n'] = some [.flowSequence, .flowSequenceEnd] := by decide
    have hc : Composer.document? [.flowSequence, .flowSequenceEnd] = some (some (.list {} [])) := rfl
    rw [List.map_nil, hw, document?, ht]
    simp only [Option.bind_eq_bind, Option.bind_some, hc, Option.map_some]
    rfl
  | cons r rs =>
    rw [document?, tokens?_table hrs]
    simp only [Option.bind_eq_bind, Option.bind_some, Composer.document?_table, Option.map_some, ha]
    rfl

theorem readList?_table {α : Type} (read : Document → Node → Option α) {rs : List Record}
    (hrs : ∀ r ∈ rs, IsRecord r) :
    readList? read (Value.document (rs.map Record.toValue)) =
      (rs.map Record.node).mapM (read (tableDocument rs)) := by
  have hm : (tableDocument rs).isModest = true := by
    have h := aliasesIn_records rs (tableDocument rs) 7
    have hd : (tableDocument rs).aliases Document.depth (.list {} (rs.map Record.node)) = 0 := by
      rw [Document.depth, Document.aliases, h]
    have hr : (tableDocument rs).root? = some (.list {} (rs.map Record.node)) := rfl
    rw [Document.isModest, hr]
    simp only [hd, Nat.zero_le, decide_true]
  have hi : (tableDocument rs).rootItems? = some (rs.map Record.node) := rfl
  rw [readList?, Value.document, String.toList_ofList, document?_writeDocument hrs]
  simp only [Option.bind_eq_bind, Option.bind_some, hm, if_true, hi]

theorem mapM_map_eq_some {α β : Type} {f : β → Option α} {g : α → β}
    (h : ∀ a, f (g a) = some a) (as : List α) : (as.map g).mapM f = some as := by
  have hf : f ∘ g = fun a => pure a := funext h
  rw [List.mapM_map, hf, List.mapM_pure, List.map_id']
  rfl

theorem readList?_records {α : Type} {ofNode? : Document → Node → Option α} {toValue : α → Value}
    {record : α → Record} (hv : ∀ a, (record a).toValue = toValue a)
    (hr : ∀ a, IsRecord (record a)) (ho : ∀ d a, ofNode? d (record a).node = some a)
    (as : List α) : readList? ofNode? (Value.document (as.map toValue)) = some as := by
  have ht : as.map toValue = (as.map record).map Record.toValue := by
    rw [List.map_map]
    exact List.map_congr_left fun a _ => (hv a).symm
  have hrs : ∀ r ∈ as.map record, IsRecord r := List.forall_mem_map.mpr fun a _ => hr a
  rw [ht, readList?_table ofNode? hrs, List.map_map]
  exact mapM_map_eq_some (ho _) as

namespace Document

variable (d : Document)

theorem text?_textNode (s : String) : d.text? (textNode s) = some s :=
  congrArg some String.ofList_toList

theorem word?_textNode (s : String) : d.word? (textNode s) = some s :=
  congrArg some String.ofList_toList

theorem texts?_node (ss : List String) : d.texts? (Cell.node (.texts ss)) = some ss :=
  mapM_map_eq_some d.text?_textNode ss

theorem entries?_node {names : List String} {r : Record} (hn : ∀ e ∈ r, e.1 ∈ names)
    (hd : (r.map (·.1)).eraseDups.length = r.length) :
    d.entries? names r.node = some (r.map fun e => (e.1, e.2.node)) := by
  have h : (r.map Record.entryNodes).mapM
      (fun e : Node × Node => (d.text? e.1).bind fun k => pure (k, e.2)) =
        some (r.map fun e => (e.1, e.2.node)) := by
    clear hn hd
    induction r with
    | nil => rfl
    | cons e r ih =>
      have he : d.text? (Node.scalar {} true e.1.toList) = some e.1 :=
        congrArg some String.ofList_toList
      rw [List.map_cons, List.mapM_cons, ih, Record.entryNodes, he]
      rfl
  have hr : d.resolve? r.node = some (.fields {} (r.map Record.entryNodes)) := rfl
  have hall : (r.map fun e => (e.1, e.2.node)).all (names.contains ·.1) = true := by
    rw [List.all_map, List.all_eq_true]
    exact fun e he => List.contains_iff_mem.mpr (hn e he)
  have hdup : ((r.map fun e => (e.1, e.2.node)).map (·.1)).eraseDups.length =
      (r.map fun e => (e.1, e.2.node)).length := by
    rw [List.map_map, List.length_map]
    exact hd
  rw [entries?, hr]
  simp only [h, Option.bind_eq_bind, Option.bind_some, hall, hdup, decide_true, Bool.and_self, if_true]

end Document

end EndpointCatalog.Yaml
