import EndpointCatalog.Command.Listing
import EndpointCatalog.Proofs.Command.Address
import EndpointCatalog.Proofs.Groups

namespace EndpointCatalog.Command

open Text.Blank Text.Search

variable {cs ds : List Command} {c d : Command} {g : String × List Command}

theorem grouped_eq_ofPairs (cs : List Command) :
    grouped cs = Groups.ofPairs (cs.map fun c => (c.group, c)) := by
  rw [Groups.ofPairs, List.foldl_map]
  rfl

theorem isSorted_grouped (cs : List Command) : (grouped cs).IsSorted := by
  rw [grouped_eq_ofPairs]
  exact Groups.isSorted_ofPairs _

theorem values_grouped_perm (cs : List Command) : (grouped cs).values.Perm cs := by
  have h := Groups.values_ofPairs_perm (cs.map fun c => (c.group, c))
  rw [List.map_map, ← grouped_eq_ofPairs] at h
  exact h.trans (List.Perm.of_eq (List.map_id'' (fun _ => rfl) cs))

theorem eq_filter_of_mem_grouped (hg : g ∈ grouped cs) : g.2 = cs.filter (·.group == g.1) := by
  rw [← Groups.under_of_mem (isSorted_grouped cs) hg, grouped_eq_ofPairs, Groups.under_ofPairs,
    List.filter_map, List.map_map]
  exact List.map_id'' (fun _ => rfl) _

theorem ne_nil_of_mem_grouped (hg : g ∈ grouped cs) : g.2 ≠ [] := by
  rw [grouped_eq_ofPairs] at hg
  exact (Groups.each_ofPairs _ g hg).1

theorem mem_of_mem_grouped (hg : g ∈ grouped cs) (hc : c ∈ g.2) : c ∈ cs ∧ c.group = g.1 := by
  rw [eq_filter_of_mem_grouped hg, List.mem_filter, beq_iff_eq] at hc
  exact hc

def texts (c : Command) : List String := [c.module, c.controller, c.command] ++ c.parameters

/-- Whether no text of a command has white space or a slash in it. -/
def IsBare (c : Command) : Prop := ∀ t ∈ c.texts, ∀ x ∈ t.toList, isBlank x = false ∧ x ≠ '/'

instance (c : Command) : Decidable c.IsBare :=
  decidable_of_iff (c.texts.all fun t => t.toList.all fun x => !isBlank x && x != '/')
    (by simp [IsBare])

theorem IsBare.notMem (h : c.IsBare) {t : String} (ht : t ∈ c.texts) {x : Char}
    (hx : isBlank x = true ∨ x = '/') : x ∉ t.toList := by
  intro hm
  obtain ⟨hb, hs⟩ := h t ht x hm
  obtain hx | hx := hx
  · rw [hb] at hx
    cases hx
  · exact hs hx

def bracketed (w : List Char) : List Char := '<' :: (w ++ ['>'])

def parts (c : Command) : List (List Char) :=
  c.command.toList :: (c.parameters.map String.toList).map bracketed

theorem parts_ne_nil (c : Command) : c.parts ≠ [] := List.cons_ne_nil _ _

def column (v : Verb) : List Char := ' ' :: ' ' :: (padded 6 v.text).toList

theorem bracketed_intercalate {ws : List (List Char)} (h : ws ≠ []) :
    bracketed (['>', ' ', '<'].intercalate ws) = [' '].intercalate (ws.map bracketed) := by
  induction ws with
  | nil => exact absurd rfl h
  | cons w ws ih =>
    by_cases hw : ws = []
    · rw [hw, List.map_singleton, List.intercalate_singleton, List.intercalate_singleton]
    · have hm : ws.map bracketed ≠ [] := mt List.map_eq_nil_iff.mp hw
      rw [List.map_cons, List.intercalate_cons_of_ne_nil hw, List.intercalate_cons_of_ne_nil hm,
        ← ih hw]
      simp [bracketed]

theorem intercalate_parts (c : Command) :
    (c.command ++ (if c.parameters.isEmpty then ""
      else " <" ++ "> <".intercalate c.parameters ++ ">")).toList = [' '].intercalate c.parts := by
  rw [String.toList_append, parts]
  split
  · rename_i h
    rw [List.isEmpty_iff.mp h, List.map_nil, List.map_nil, List.intercalate_singleton]
    exact List.append_nil _
  · rename_i h
    have hn : c.parameters.map String.toList ≠ [] := by simpa using h
    rw [List.intercalate_cons_of_ne_nil (by simpa using h), ← bracketed_intercalate hn]
    simp [bracketed, String.toList_intercalate]

theorem toList_line (c : Command) :
    c.line.toList = column c.verb ++ ' ' :: [' '].intercalate c.parts := by
  rw [← intercalate_parts, line, column]
  simp

theorem column_append_inj {v w : Verb} {x y : List Char} :
    column v ++ x = column w ++ y ↔ v = w ∧ x = y := by
  constructor
  · intro h
    have hl : ∀ u, (column u).length = 8 := by rintro (_ | _ | _) <;> rfl
    obtain ⟨hc, hx⟩ := List.append_inj h ((hl v).trans (hl w).symm)
    refine ⟨?_, hx⟩
    cases v <;> cases w <;> first | rfl | exact absurd hc (by decide)
  · rintro ⟨rfl, rfl⟩
    rfl

theorem bracketed_inj {v w : List Char} : bracketed v = bracketed w ↔ v = w := by
  rw [bracketed, bracketed, List.cons_inj_right, List.append_cancel_right_eq]

theorem parts_inj : c.parts = d.parts ↔ c.command = d.command ∧ c.parameters = d.parameters := by
  rw [parts, parts, List.cons.injEq, String.toList_inj,
    List.map_inj_right fun _ _ => bracketed_inj.mp,
    List.map_inj_right fun _ _ => String.toList_inj.mp]

theorem IsBare.notMem_parts (h : c.IsBare) {x : Char} (hx : isBlank x = true) :
    ∀ w ∈ c.parts, x ∉ w := by
  have ht : ∀ t ∈ c.texts, x ∉ t.toList := fun t ht => h.notMem ht (.inl hx)
  have hb : x ≠ '<' ∧ x ≠ '>' := by
    constructor <;> rintro rfl <;> exact absurd hx (by decide)
  refine List.forall_mem_cons.mpr ⟨ht _ (by simp [texts]), ?_⟩
  rw [List.map_map, List.forall_mem_map]
  intro p hp
  have hm : x ∉ p.toList := ht p (List.mem_append_right _ hp)
  simp [bracketed, hb, hm]

/-- The line of a command tells all but its group. -/
theorem line_inj (hc : c.IsBare) (hd : d.IsBare) :
    c.line = d.line ↔ c.verb = d.verb ∧ c.command = d.command ∧ c.parameters = d.parameters := by
  have hb : isBlank ' ' = true := by decide
  rw [← String.toList_inj, toList_line, toList_line, column_append_inj, List.cons_inj_right,
    intercalate_inj c.parts_ne_nil d.parts_ne_nil (hc.notMem_parts hb) (hd.notMem_parts hb),
    parts_inj]

theorem IsBare.newline_notMem_line (h : c.IsBare) : '\n' ∉ c.line.toList := by
  have hv : ∀ v, '\n' ∉ column v := by rintro (_ | _ | _) <;> decide
  rw [toList_line, List.mem_append, List.mem_cons, not_or, not_or]
  refine ⟨hv _, by decide, fun hm => ?_⟩
  obtain hs | ⟨w, hw, hm⟩ := mem_intercalate hm
  · exact absurd hs (by decide)
  · exact h.notMem_parts (by decide) w hw hm

theorem IsBare.notMem_group (h : c.IsBare) {x : Char} (hx : isBlank x = true) :
    x ∉ c.group.toList := by
  have hs : x ≠ '/' := by
    rintro rfl
    exact absurd hx (by decide)
  rw [group, toList_append_slash, List.mem_append, List.mem_cons, not_or, not_or]
  exact ⟨h.notMem (by simp [texts]) (.inl hx), hs, h.notMem (by simp [texts]) (.inl hx)⟩

theorem eq_of_line (hc : c.IsBare) (hd : d.IsBare) (hg : c.group = d.group)
    (hl : c.line = d.line) : c = d := by
  have hs : ∀ {c : Command}, c.IsBare → '/' ∉ c.controller.toList := fun h =>
    h.notMem (by simp [texts]) (.inr rfl)
  obtain ⟨hm, hk⟩ := (group_eq_iff (hs hc) (hs hd)).mp hg
  obtain ⟨hv, ht, hp⟩ := (line_inj hc hd).mp hl
  cases c
  cases d
  rw [mk.injEq]
  exact ⟨hm, hk, ht, hv, hp⟩

def isIndented (l : String) : Bool := l.toList.head? == some ' '

theorem isIndented_line (c : Command) : isIndented c.line = true := by
  rw [isIndented, toList_line]
  rfl

theorem IsBare.isIndented_group (h : c.IsBare) : isIndented c.group = false := by
  rw [isIndented, beq_eq_false_iff_ne]
  exact fun hh => h.notMem_group (by decide) (List.mem_of_mem_head? hh)

/-- What stands under a key belongs to it and is bare. -/
def IsOf (key : String) (c : Command) : Prop := c.group = key ∧ c.IsBare

theorem each_grouped (h : ∀ c ∈ cs, c.IsBare) : (grouped cs).Each IsOf := by
  intro g hg
  refine ⟨ne_nil_of_mem_grouped hg, fun c hc => ?_⟩
  obtain ⟨hm, hk⟩ := mem_of_mem_grouped hg hc
  exact ⟨hk, h c hm⟩

theorem eq_of_map_line {key : String} (hc : ∀ c ∈ cs, IsOf key c) (hd : ∀ d ∈ ds, IsOf key d)
    (h : cs.map line = ds.map line) : cs = ds := by
  induction cs generalizing ds with
  | nil => exact (List.map_eq_nil_iff.mp h.symm).symm
  | cons c cs ih =>
    cases ds with
    | nil => cases h
    | cons d ds =>
      obtain ⟨⟨hgc, hbc⟩, hc⟩ := List.forall_mem_cons.mp hc
      obtain ⟨⟨hgd, hbd⟩, hd⟩ := List.forall_mem_cons.mp hd
      obtain ⟨hl, ht⟩ := List.cons.inj h
      rw [eq_of_line hbc hbd (hgc.trans hgd.symm) hl, ih hc hd ht]

variable {gs hs : Groups Command}

theorem isIndented_key (h : gs.Each IsOf) (hg : g ∈ gs) : isIndented g.1 = false := by
  obtain ⟨hn, hv⟩ := h g hg
  obtain ⟨c, vs, he⟩ := List.exists_cons_of_ne_nil hn
  obtain ⟨hk, hb⟩ := hv c (he ▸ List.mem_cons_self)
  rw [← hk]
  exact hb.isIndented_group

theorem takeWhile_isIndented (h : gs.Each IsOf) (cs : List Command) :
    (cs.map line ++ gs.flatMap groupLines).takeWhile isIndented = cs.map line := by
  have hr : (gs.flatMap groupLines).takeWhile isIndented = [] := by
    cases gs with
    | nil => rfl
    | cons g gs =>
      have hg := isIndented_key h List.mem_cons_self
      rw [List.flatMap_cons, groupLines, List.cons_append, List.takeWhile_cons, hg]
      rfl
  rw [List.takeWhile_append_of_pos, hr, List.append_nil]
  exact List.forall_mem_map.mpr fun c _ => isIndented_line c

theorem flatMap_groupLines_inj (hg : gs.Each IsOf) (hh : hs.Each IsOf) :
    gs.flatMap groupLines = hs.flatMap groupLines ↔ gs = hs := by
  refine ⟨fun h => ?_, congrArg _⟩
  induction gs generalizing hs with
  | nil =>
    cases hs with
    | nil => rfl
    | cons f hs => cases h
  | cons g gs ih =>
    cases hs with
    | nil => cases h
    | cons f hs =>
      obtain ⟨⟨-, hgv⟩, hgs⟩ := List.forall_mem_cons.mp hg
      obtain ⟨⟨-, hfv⟩, hhs⟩ := List.forall_mem_cons.mp hh
      rw [List.flatMap_cons, List.flatMap_cons, groupLines, groupLines, List.cons_append,
        List.cons_append, List.cons.injEq] at h
      obtain ⟨hk, ht⟩ := h
      have hl := congrArg (List.takeWhile isIndented) ht
      rw [takeWhile_isIndented hgs, takeWhile_isIndented hhs] at hl
      rw [hl, List.append_cancel_left_eq] at ht
      rw [← hk] at hfv
      have hv := eq_of_map_line hgv hfv hl
      rw [Prod.ext hk hv, ih hgs hhs ht]

theorem toList_listing (cs : List Command) :
    (listing cs).toList =
      (((grouped cs).flatMap groupLines).map String.toList).flatMap (· ++ ['\n']) := by
  rw [listing, String.toList_intercalate, List.map_map, List.flatMap_map, List.flatMap_def]
  refine (Connection.intercalate_nil _).trans (congrArg List.flatten ?_)
  exact List.map_congr_left fun l _ => String.toList_append

theorem newline_notMem_of_mem_lines (h : ∀ c ∈ cs, c.IsBare) :
    ∀ w ∈ ((grouped cs).flatMap groupLines).map String.toList, '\n' ∉ w := by
  refine List.forall_mem_map.mpr fun l hl => ?_
  obtain ⟨g, hg, hl⟩ := List.mem_flatMap.mp hl
  obtain ⟨hn, hb⟩ := each_grouped h g hg
  obtain rfl | hl := List.mem_cons.mp hl
  · obtain ⟨c, vs, he⟩ := List.exists_cons_of_ne_nil hn
    obtain ⟨hk, hb⟩ := hb c (he ▸ List.mem_cons_self)
    rw [← hk]
    exact hb.notMem_group (by decide)
  · obtain ⟨c, hc, rfl⟩ := List.mem_map.mp hl
    exact (hb c hc).2.newline_notMem_line

/-- Groups have increasing keys, each holds the commands that belong to it in their order, and
together they hold all commands. Listings of bare commands are equal exactly if their groups are. -/
theorem listing_eq_iff :
    (∀ cs, (grouped cs).IsSorted ∧
      (∀ g ∈ grouped cs, g.2 ≠ [] ∧ g.2 = cs.filter (·.group == g.1)) ∧
      (grouped cs).values.Perm cs) ∧
    ∀ cs ds, (∀ c ∈ cs, c.IsBare) → (∀ d ∈ ds, d.IsBare) →
      (listing cs = listing ds ↔ grouped cs = grouped ds) := by
  refine ⟨fun cs => ⟨isSorted_grouped cs, fun g hg => ?_, values_grouped_perm cs⟩, ?_⟩
  · exact ⟨ne_nil_of_mem_grouped hg, eq_filter_of_mem_grouped hg⟩
  · intro cs ds hc hd
    rw [← String.toList_inj, toList_listing, toList_listing,
      flatMap_concat_inj (newline_notMem_of_mem_lines hc) (newline_notMem_of_mem_lines hd),
      List.map_inj_right fun _ _ => String.toList_inj.mp,
      flatMap_groupLines_inj (each_grouped hc) (each_grouped hd)]

/-- A command whose texts are all empty and one without a name of its own, and a parameter without a
name, which is not the same as none. -/
theorem listing_eq_iff_empty :
    let a : Command := ⟨"foo", "bar", "get", .get, [""]⟩
    let b : Command := ⟨"foo", "bar", "", .post, ["id", "<key>"]⟩
    let c : Command := ⟨"", "", "", .any, []⟩
    (∀ x ∈ [a, c, b], x.IsBare) ∧ (∀ x ∈ [c, a, b], x.IsBare) ∧
      (∀ x ∈ [c, { a with parameters := [] }, b], x.IsBare) ∧
      listing [a, c, b] = listing [c, a, b] ∧
      listing [a, c, b] ≠ listing [c, { a with parameters := [] }, b] := by
  intro a b c
  have hx : ∀ x ∈ [a, c, b], x.IsBare := by decide +kernel
  have hy : ∀ x ∈ [c, a, b], x.IsBare := by decide +kernel
  have hz : ∀ x ∈ [c, { a with parameters := [] }, b], x.IsBare := by decide +kernel
  obtain ⟨-, hl⟩ := listing_eq_iff
  refine ⟨hx, hy, hz, (hl _ _ hx hy).mpr (by decide +kernel), fun h => ?_⟩
  exact absurd ((hl _ _ hx hz).mp h) (by decide +kernel)

end EndpointCatalog.Command
