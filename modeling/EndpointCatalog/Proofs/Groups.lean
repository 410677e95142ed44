import EndpointCatalog.Groups

namespace EndpointCatalog.Groups

variable {α β : Type}

def ofPairs (vs : List (String × α)) : Groups α := vs.foldl (fun gs v => gs.add v.1 v.2) []

def mapValues (f : α → β) (gs : Groups α) : Groups β := List.map (fun g => (g.1, g.2.map f)) gs

theorem values_cons (g : String × List α) (gs : Groups α) : values (g :: gs) = g.2 ++ values gs := by
  rw [values, List.flatMap_cons]
  rfl

theorem values_mapValues (f : α → β) (gs : Groups α) :
    (gs.mapValues f).values = gs.values.map f := by
  rw [values, values, mapValues, List.flatMap_map, List.map_flatMap]

theorem values_add_perm (key : String) (value : α) (gs : Groups α) :
    (gs.add key value).values.Perm (value :: gs.values) := by
  induction gs with
  | nil => exact List.Perm.refl _
  | cons g gs ih =>
    obtain ⟨k, vs⟩ := g
    rw [add]
    split
    · exact List.Perm.refl _
    split
    · rw [values_cons, values_cons, List.append_assoc]
      exact List.perm_middle
    · rw [values_cons, values_cons]
      exact (ih.append_left vs).trans List.perm_middle

theorem mapValues_add (f : α → β) (key : String) (value : α) (gs : Groups α) :
    (gs.add key value).mapValues f = (gs.mapValues f).add key (f value) := by
  induction gs with
  | nil => rfl
  | cons g gs ih =>
    obtain ⟨k, vs⟩ := g
    have hm : mapValues f ((k, vs) :: gs) = (k, vs.map f) :: mapValues f gs := rfl
    rw [hm, add, add]
    split
    · rfl
    split
    · rw [← List.map_singleton, ← List.map_append]
      rfl
    · rw [← ih]
      rfl

/-- What holds of no groups and is kept with each value that is added holds of all groups. -/
theorem ofPairs_induction {P : List (String × α) → Groups α → Prop} (nil : P [] [])
    (concat : ∀ vs gs v, P vs gs → P (vs ++ [v]) (gs.add v.1 v.2)) (vs : List (String × α)) :
    P vs (ofPairs vs) := by
  have hf : ∀ (ws us : List (String × α)) (gs : Groups α), P us gs →
      P (us ++ ws) (ws.foldl (fun gs v => gs.add v.1 v.2) gs) := by
    intro ws
    induction ws with
    | nil =>
      intro us gs h
      rwa [List.append_nil]
    | cons w ws ih =>
      intro us gs h
      have hw := ih (us ++ [w]) (gs.add w.1 w.2) (concat us gs w h)
      rwa [List.append_assoc] at hw
  exact hf vs [] [] nil

theorem ofPairs_concat (vs : List (String × α)) (v : String × α) :
    ofPairs (vs ++ [v]) = (ofPairs vs).add v.1 v.2 := by
  rw [ofPairs, List.foldl_append]
  rfl

theorem values_ofPairs_perm (vs : List (String × α)) :
    (ofPairs vs).values.Perm (vs.map (·.2)) := by
  refine ofPairs_induction (P := fun vs gs => gs.values.Perm (vs.map (·.2))) (.refl _) ?_ vs
  intro vs gs v h
  rw [List.map_append]
  exact (values_add_perm v.1 v.2 gs).trans ((h.cons v.2).trans (List.perm_append_singleton _ _).symm)

theorem mapValues_ofPairs (f : α → β) (vs : List (String × α)) :
    (ofPairs vs).mapValues f = ofPairs (vs.map fun v => (v.1, f v.2)) := by
  refine ofPairs_induction
    (P := fun vs gs => gs.mapValues f = ofPairs (vs.map fun v => (v.1, f v.2))) rfl ?_ vs
  intro vs gs v h
  rw [mapValues_add, h, List.map_append, List.map_singleton, ofPairs_concat]

/-- Whether each group has a value and `P` holds of each value with its key. -/
def Each (P : String → α → Prop) (gs : Groups α) : Prop :=
  ∀ g ∈ gs, g.2 ≠ [] ∧ ∀ v ∈ g.2, P g.1 v

theorem each_add {P : String → α → Prop} {key : String} {value : α} (hv : P key value)
    {gs : Groups α} (h : Each P gs) : Each P (gs.add key value) := by
  have hn : [value] ≠ [] ∧ ∀ v ∈ [value], P key v :=
    ⟨List.cons_ne_nil _ _, fun v hm => List.mem_singleton.mp hm ▸ hv⟩
  induction gs with
  | nil => exact List.forall_mem_singleton.mpr hn
  | cons g gs ih =>
    obtain ⟨k, vs⟩ := g
    obtain ⟨hg, hgs⟩ := List.forall_mem_cons.mp h
    rw [add]
    split
    · exact List.forall_mem_cons.mpr ⟨hn, h⟩
    split
    · rename_i hk
      subst hk
      refine List.forall_mem_cons.mpr ⟨⟨?_, ?_⟩, hgs⟩
      · exact List.append_ne_nil_of_left_ne_nil hg.1 _
      · exact List.forall_mem_append.mpr ⟨hg.2, hn.2⟩
    · exact List.forall_mem_cons.mpr ⟨hg, ih hgs⟩

theorem Each.mono {P Q : String → α → Prop} {gs : Groups α} (h : Each P gs)
    (hPQ : ∀ k v, P k v → Q k v) : Each Q gs := fun g hg =>
  (h g hg).imp_right fun hv v hm => hPQ g.1 v (hv v hm)

theorem each_ofPairs (vs : List (String × α)) : Each (fun k v => (k, v) ∈ vs) (ofPairs vs) := by
  refine ofPairs_induction (P := fun vs gs => Each (fun k v => (k, v) ∈ vs) gs)
    (List.forall_mem_nil _) ?_ vs
  intro vs gs v h
  have hv : (v.1, v.2) ∈ vs ++ [v] := List.mem_append_right _ (List.mem_singleton_self v)
  have hs : Each (fun k w => (k, w) ∈ vs ++ [v]) gs := h.mono fun k w => List.mem_append_left _
  exact each_add hv hs

def keys (gs : Groups α) : List String := List.map (·.1) gs

/-- The values under a key; there are none under a key that no group has. -/
def under (gs : Groups α) (key : String) : List α := (List.lookup key gs).getD []

/-- Whether the keys increase, so that no two groups share one. -/
def IsSorted (gs : Groups α) : Prop := gs.keys.Pairwise (· < ·)

theorem under_cons (k : String) (vs : List α) (gs : Groups α) (key : String) :
    under ((k, vs) :: gs) key = if key = k then vs else under gs key := by
  rw [under, List.lookup_cons]
  by_cases h : key = k
  · rw [if_pos h, beq_iff_eq.mpr h]
    rfl
  · rw [if_neg h, beq_eq_false_iff_ne.mpr h]
    rfl

theorem under_eq_nil {gs : Groups α} {key : String} (h : key ∉ gs.keys) : gs.under key = [] := by
  have hl : List.lookup key gs = none := List.lookup_eq_none_iff.mpr fun g hg =>
    bne_iff_ne.mpr fun he => h (he ▸ List.mem_map_of_mem hg)
  rw [under, hl]
  rfl

theorem mem_keys_add {key k : String} {value : α} {gs : Groups α} :
    k ∈ (gs.add key value).keys ↔ k = key ∨ k ∈ gs.keys := by
  induction gs with
  | nil => simp [add, keys]
  | cons g gs ih =>
    obtain ⟨l, vs⟩ := g
    have hc : ∀ vs' gs', k ∈ keys ((l, vs') :: gs' : Groups α) ↔ k = l ∨ k ∈ keys gs' :=
      fun _ _ => List.mem_cons
    rw [add, hc]
    split
    · exact List.mem_cons.trans (or_congr_right (hc vs gs))
    split
    · rename_i he
      rw [hc, he, or_self_left]
    · rw [hc, ih]
      exact or_left_comm

theorem isSorted_add (key : String) (value : α) {gs : Groups α} (h : gs.IsSorted) :
    (gs.add key value).IsSorted := by
  induction gs with
  | nil => exact List.pairwise_singleton _ _
  | cons g gs ih =>
    obtain ⟨k, vs⟩ := g
    obtain ⟨hk, hgs⟩ := List.pairwise_cons.mp h
    rw [add]
    split
    · rename_i hlt
      refine List.pairwise_cons.mpr ⟨List.forall_mem_cons.mpr ⟨hlt, fun l hl => ?_⟩, h⟩
      exact String.lt_trans hlt (hk l hl)
    split
    · exact h
    · rename_i hlt hne
      refine List.pairwise_cons.mpr ⟨fun l hl => ?_, ih hgs⟩
      obtain rfl | hl := mem_keys_add.mp hl
      · exact Std.lt_of_le_of_ne (String.not_lt.mp hlt) (Ne.symm hne)
      · exact hk l hl

theorem under_add {gs : Groups α} (h : gs.IsSorted) (key : String) (value : α) (k : String) :
    (gs.add key value).under k = gs.under k ++ if k = key then [value] else [] := by
  induction gs with
  | nil => exact under_cons key [value] [] k
  | cons g gs ih =>
    obtain ⟨l, vs⟩ := g
    obtain ⟨hl, hgs⟩ := List.pairwise_cons.mp h
    rw [add]
    split
    · rename_i hlt
      -- no group has a key that is smaller than the first
      have hn : key ∉ keys ((l, vs) :: gs) := fun hm => by
        obtain he | hm := List.mem_cons.mp hm
        · exact String.ne_of_lt hlt he
        · exact String.lt_asymm hlt (hl key hm)
      rw [under_cons key]
      split
      · rename_i he
        rw [he, under_eq_nil hn, List.nil_append]
      · rw [List.append_nil]
    split
    · rename_i he
      rw [under_cons, under_cons, he]
      split
      · rfl
      · rw [List.append_nil]
    · rename_i hne
      rw [under_cons, under_cons, ih hgs]
      split
      · rename_i hk
        rw [if_neg fun he => hne (he.symm.trans hk), List.append_nil]
      · rfl

theorem under_of_mem {gs : Groups α} (h : gs.IsSorted) {g : String × List α} (hg : g ∈ gs) :
    gs.under g.1 = g.2 := by
  induction gs with
  | nil => exact absurd hg List.not_mem_nil
  | cons f gs ih =>
    obtain ⟨k, vs⟩ := f
    obtain ⟨hk, hgs⟩ := List.pairwise_cons.mp h
    rw [under_cons]
    obtain rfl | hg := List.mem_cons.mp hg
    · exact if_pos rfl
    · have hlt : k < g.1 := hk g.1 (List.mem_map_of_mem hg)
      rw [if_neg (String.ne_of_lt hlt).symm, ih hgs hg]

theorem isSorted_ofPairs (vs : List (String × α)) : (ofPairs vs).IsSorted :=
  ofPairs_induction (P := fun _ gs => gs.IsSorted) List.Pairwise.nil
    (fun _ _ v h => isSorted_add v.1 v.2 h) vs

theorem mem_keys_ofPairs {vs : List (String × α)} {k : String} :
    k ∈ (ofPairs vs).keys ↔ k ∈ vs.map (·.1) := by
  refine ofPairs_induction (P := fun vs gs => k ∈ gs.keys ↔ k ∈ vs.map (·.1)) Iff.rfl ?_ vs
  intro vs gs v h
  rw [mem_keys_add, h, List.map_append, List.mem_append, List.map_singleton, List.mem_singleton,
    or_comm]

theorem under_ofPairs (vs : List (String × α)) (k : String) :
    (ofPairs vs).under k = (vs.filter (·.1 == k)).map (·.2) := by
  let P (vs : List (String × α)) (gs : Groups α) : Prop :=
    gs.IsSorted ∧ gs.under k = (vs.filter (·.1 == k)).map (·.2)
  refine (ofPairs_induction (P := P) ⟨List.Pairwise.nil, rfl⟩ ?_ vs).2
  rintro vs gs v ⟨hs, hu⟩
  refine ⟨isSorted_add v.1 v.2 hs, ?_⟩
  rw [under_add hs, hu, List.filter_append, List.map_append, List.filter_cons]
  by_cases h : v.1 = k
  · rw [if_pos h.symm, if_pos (beq_iff_eq.mpr h)]
    rfl
  · rw [if_neg (Ne.symm h), if_neg (mt beq_iff_eq.mp h)]
    rfl

end EndpointCatalog.Groups
