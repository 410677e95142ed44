import EndpointCatalog.Json.Reader
import EndpointCatalog.Proofs.Json.Number

namespace EndpointCatalog.Json

variable {k : String} {v : Value} {es fs : List (String × Value)} {cs rest : List Char} {d : Nat}

/-- Whether the entries of an object stand by increasing names, each name once. -/
def IsSorted (es : List (String × Value)) : Prop := es.Pairwise fun e f => e.1 < f.1

theorem mem_insert {e : String × Value} (h : e ∈ insert k v es) : e = (k, v) ∨ e ∈ es := by
  induction es with
  | nil => exact .inl (List.mem_singleton.mp h)
  | cons f es ih =>
    rw [insert] at h
    split at h
    · exact List.mem_cons.mp h
    split at h
    · exact (List.mem_cons.mp h).imp_right (List.mem_cons_of_mem f)
    · obtain rfl | h := List.mem_cons.mp h
      · exact .inr List.mem_cons_self
      · exact (ih h).imp_right (List.mem_cons_of_mem f)

theorem isSorted_insert (k : String) (v : Value) (h : IsSorted es) : IsSorted (insert k v es) := by
  induction es with
  | nil => exact List.pairwise_singleton _ _
  | cons f es ih =>
    obtain ⟨hf, hs⟩ := List.pairwise_cons.mp h
    rw [insert]
    split
    · rename_i hk
      refine List.pairwise_cons.mpr ⟨List.forall_mem_cons.mpr ⟨hk, fun e he => ?_⟩, h⟩
      exact String.lt_trans hk (hf e he)
    split
    · rename_i hk
      subst hk
      exact List.pairwise_cons.mpr ⟨hf, hs⟩
    · rename_i hk hn
      refine List.pairwise_cons.mpr ⟨fun e he => ?_, ih hs⟩
      obtain rfl | he := mem_insert he
      · exact Std.lt_of_le_of_ne (String.not_lt.mp hk) (Ne.symm hn)
      · exact hf e he

theorem foldl_insert_spec {P : Value → Prop} (hf : IsSorted fs) (hfs : ∀ f ∈ fs, P f.2)
    (hes : ∀ e ∈ es, P e.2) :
    let gs := es.foldl (fun fs e => insert e.1 e.2 fs) fs
    IsSorted gs ∧ ∀ g ∈ gs, P g.2 := by
  induction es generalizing fs with
  | nil => exact ⟨hf, hfs⟩
  | cons e es ih =>
    obtain ⟨he, hes⟩ := List.forall_mem_cons.mp hes
    refine ih (isSorted_insert e.1 e.2 hf) (fun f hm => ?_) hes
    obtain rfl | hm := mem_insert hm
    · exact he
    · exact hfs f hm

theorem insert_of_forall_lt (h : ∀ e ∈ es, e.1 < k) : insert k v es = es ++ [(k, v)] := by
  induction es with
  | nil => rfl
  | cons e es ih =>
    obtain ⟨he, h⟩ := List.forall_mem_cons.mp h
    have hn : k ≠ e.1 := fun hk => String.lt_irrefl _ (hk ▸ he)
    rw [insert, if_neg (String.lt_asymm he), if_neg hn, ih h]
    rfl

theorem foldl_insert_of_isSorted (h : IsSorted (fs ++ es)) :
    es.foldl (fun fs e => insert e.1 e.2 fs) fs = fs ++ es := by
  induction es generalizing fs with
  | nil => exact (List.append_nil fs).symm
  | cons e es ih =>
    have he : ∀ f ∈ fs, f.1 < e.1 := fun f hf =>
      (List.pairwise_append.mp h).2.2 f hf e List.mem_cons_self
    rw [List.append_cons] at h ⊢
    rw [List.foldl_cons, insert_of_forall_lt he, ih h]

inductive IsScalar : Value → Prop
  | null : IsScalar .null
  | bool (b : Bool) : IsScalar (.bool b)
  | number {v : Value} (h : Number.IsNumber v) : IsScalar v
  | text (s : String) : IsScalar (.text s)

/-- Whether a value can come out of a text whose collections are nested at most `depth` times. -/
inductive IsRead : Nat → Value → Prop
  | scalar {depth : Nat} {v : Value} (h : IsScalar v) : IsRead depth v
  | list {depth : Nat} {vs : List Value} (h : ∀ v ∈ vs, IsRead depth v) : IsRead (depth + 1) (.list vs)
  | fields {depth : Nat} {es : List (String × Value)} (hs : IsSorted es)
      (h : ∀ e ∈ es, IsRead depth e.2) : IsRead (depth + 1) (.fields es)

theorem isScalar_of_word? (h : word? cs = some (v, rest)) : IsScalar v := by
  obtain ⟨⟨w, u⟩, hp, h⟩ := List.exists_of_findSome?_eq_some h
  dsimp only at h
  split at h
  · obtain ⟨rfl, -⟩ := Prod.mk.inj (Option.some.inj h)
    simp only [words, List.mem_cons, List.not_mem_nil, or_false, Prod.mk.injEq] at hp
    obtain ⟨-, rfl⟩ | ⟨-, rfl⟩ | ⟨-, rfl⟩ := hp
    · exact .null
    · exact .bool true
    · exact .bool false
  · cases h

theorem isScalar_of_scalar? (h : scalar? cs = some (v, rest)) : IsScalar v := by
  rw [scalar?.eq_def] at h
  split at h
  · obtain ⟨p, -, hp⟩ := Option.map_eq_some_iff.mp h
    obtain ⟨rfl, -⟩ := Prod.mk.inj hp
    exact .text _
  · obtain hw | ⟨-, hn⟩ := Option.or_eq_some_iff.mp h
    · exact isScalar_of_word? hw
    · exact .number (Number.isNumber_of_read? hn)

section

variable {α : Type} {part? : Reader α} {P : α → Prop} {close : Char} {vs : List α}

/-- What holds of all that a reader reads holds of all parts of a collection. -/
theorem forall_of_parts? (h : ∀ cs v rest, part? cs = some (v, rest) → P v) {n : Nat}
    (hp : parts? part? close n cs = some (vs, rest)) : ∀ v ∈ vs, P v := by
  induction n generalizing cs vs rest with
  | zero => cases hp
  | succ n ih =>
    rw [parts?] at hp
    obtain ⟨⟨v, cs'⟩, hv, hp⟩ := Option.bind_eq_some_iff.mp hp
    have hv := h _ _ _ hv
    dsimp only at hp
    split at hp
    · cases hp
    split at hp
    · obtain ⟨rfl, -⟩ := Prod.mk.inj (Option.some.inj hp)
      exact List.forall_mem_singleton.mpr hv
    split at hp
    · obtain ⟨⟨ws, cs''⟩, hws, hp⟩ := Option.map_eq_some_iff.mp hp
      obtain ⟨rfl, -⟩ := Prod.mk.inj hp
      exact List.forall_mem_cons.mpr ⟨hv, ih hws⟩
    · cases hp

theorem forall_of_collection? (h : ∀ cs v rest, part? cs = some (v, rest) → P v)
    (hc : collection? part? close cs = some (vs, rest)) : ∀ v ∈ vs, P v := by
  rw [collection?] at hc
  split at hc
  · obtain ⟨rfl, -⟩ := Prod.mk.inj (Option.some.inj hc)
    exact List.forall_mem_nil _
  · exact forall_of_parts? h hc

end

theorem exists_of_field? {read? : Reader Value} {e : String × Value}
    (h : field? read? cs = some (e, rest)) : ∃ cs', read? cs' = some (e.2, rest) := by
  rw [field?.eq_def] at h
  split at h
  · obtain ⟨⟨name, cs'⟩, -, h⟩ := Option.bind_eq_some_iff.mp h
    dsimp only at h
    split at h
    · obtain ⟨⟨v, cs''⟩, hv, h⟩ := Option.bind_eq_some_iff.mp h
      obtain ⟨rfl, rfl⟩ := Prod.mk.inj (Option.some.inj h)
      exact ⟨_, hv⟩
    · cases h
  · cases h

theorem isRead_of_value? (h : value? d cs = some (v, rest)) : IsRead d v := by
  induction d generalizing cs v rest with
  | zero => exact .scalar (isScalar_of_scalar? h)
  | succ d ih =>
    rw [value?.eq_def] at h
    dsimp only at h
    split at h
    · obtain ⟨⟨vs, cs'⟩, hc, h⟩ := Option.map_eq_some_iff.mp h
      obtain ⟨rfl, -⟩ := Prod.mk.inj h
      exact .list (forall_of_collection? (fun _ _ _ => ih) hc)
    · obtain ⟨⟨es, cs'⟩, hc, h⟩ := Option.map_eq_some_iff.mp h
      obtain ⟨rfl, -⟩ := Prod.mk.inj h
      have he : ∀ e ∈ es, IsRead d e.2 := by
        refine forall_of_collection? (P := fun e => IsRead d e.2) (fun cs e rest he => ?_) hc
        obtain ⟨cs', he⟩ := exists_of_field? he
        exact ih he
      obtain ⟨hs, hv⟩ := foldl_insert_spec List.Pairwise.nil (List.forall_mem_nil _) he
      exact .fields hs hv
    · exact .scalar (isScalar_of_scalar? h)

theorem isRead_of_parse? {text : String} (h : parse? text = some v) : IsRead depthLimit v := by
  obtain ⟨⟨w, cs⟩, hw, h⟩ := Option.bind_eq_some_iff.mp h
  dsimp only at h
  split at h
  · obtain rfl := Option.some.inj h
    exact isRead_of_value? hw
  · cases h

end EndpointCatalog.Json
