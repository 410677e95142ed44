import EndpointCatalog.Proofs.Controller.Nesting

namespace EndpointCatalog.Controller.Parameter

open Text.Blank Text.Search

variable {p v w : List Char} {ps : List (List Char)}

theorem intercalate_glue (h : ps ≠ []) (w : List Char) :
    [','].intercalate (glue w ps) = w ++ [','].intercalate ps := by
  obtain ⟨p, ps, rfl⟩ := List.exists_cons_of_ne_nil h
  rw [glue, intercalate_cons_eq_flatMap, intercalate_cons_eq_flatMap, List.append_assoc]

theorem intercalate_splitFrom (n : Nesting) (cs : List Char) :
    [','].intercalate (splitFrom n cs) = cs := by
  induction cs generalizing n with
  | nil => rfl
  | cons c cs ih =>
    cases h : n.atTop && c == ',' with
    | true =>
      obtain ⟨-, hc⟩ := Bool.and_eq_true_iff.mp h
      rw [splitFrom, if_pos h, List.intercalate_cons_of_ne_nil (splitFrom_ne_nil n cs), ih,
        beq_iff_eq.mp hc]
      rfl
    | false =>
      rw [splitFrom_cons h, intercalate_glue (splitFrom_ne_nil _ _), ih, List.singleton_append]

/-- A comma cuts exactly where its reader stands at the top. -/
theorem split_append_comma_iff (v w : List Char) :
    split (v ++ ',' :: w) = split v ++ split w ↔ (v.foldl Nesting.step {}).atTop = true := by
  obtain ⟨ps, x, hs, hr⟩ := splitFrom_append {} v
  rw [split, split, hs, hr, List.append_assoc, List.append_cancel_left_eq]
  cases ht : (v.foldl Nesting.step {}).atTop with
  | true =>
    rw [Nesting.atTop_iff.mp ht]
    exact iff_of_true (congrArg (· :: split w) (List.append_nil x)) rfl
  | false =>
    -- the comma stays in the piece that holds what stands in front of it
    obtain ⟨p, ps, hp⟩ := List.exists_cons_of_ne_nil
      (splitFrom_ne_nil ((v.foldl Nesting.step {}).step ',') w)
    rw [splitFrom_cons (by rw [ht, Bool.false_and]), hp]
    refine iff_of_false (fun he => ?_) Bool.false_ne_true
    have hx : x ++ ',' :: p = x := (List.cons.inj he).1
    exact List.cons_ne_nil ',' p (List.append_right_eq_self.mp hx)

theorem dropEllipses_suffix (cs : List Char) : dropEllipses cs <:+ cs := by
  induction cs using dropEllipses.induct with
  | case1 cs ih =>
    rw [dropEllipses]
    exact ih.trans (List.suffix_append ['.', '.', '.'] cs)
  | case2 cs h => exact ⟨[], dropEllipses.eq_2 cs h⟩

theorem head?_dropWhile_ne (c : Char) (cs : List Char) :
    (cs.dropWhile (· = c)).head? ≠ some c := by
  intro h
  have hn := List.head?_dropWhile_not (· = c) cs
  rw [h] at hn
  simp at hn

/-- Whether a text can be the name of a parameter. -/
structure IsName (name : List Char) : Prop where
  ne_nil : name ≠ []
  notBlank : ∀ c ∈ name, isBlank c = false
  noDefault : '=' ∉ name
  noDollar : name.head? ≠ some '$'

theorem isName_of_nameOf? (h : nameOf? p = some w) : IsName w := by
  rw [nameOf?, words_trim] at h
  split at h
  · cases h
  rename_i u hu
  dsimp only at h
  split at h
  · cases h
  rename_i hw
  obtain rfl := Option.some.inj h
  have hs : (dropEllipses (u.dropWhile (· = '&'))).dropWhile (· = '$') <:+ u :=
    (List.dropWhile_suffix _).trans ((dropEllipses_suffix _).trans (List.dropWhile_suffix _))
  have hc := fun c hc => (forall_of_mem_words (List.mem_of_getLast? hu)).2 c (hs.subset hc)
  refine ⟨mt List.isEmpty_iff.mpr hw, fun c hm => (hc c hm).2, fun hm => ?_, ?_⟩
  · have he := List.all_eq_true.mp List.all_takeWhile _ (hc '=' hm).1
    simp at he
  · exact head?_dropWhile_ne '$' _

/-- The pieces of a list with the commas between them are the list. A list behind a comma is cut as
it is by itself if and only if a reader of what stands in front is at the top there, and then the
names follow one another. Whatever the list holds, each name can be one. -/
theorem split_append :
    (∀ text : String, [','].intercalate (split text.toList) = text.toList) ∧
    (∀ a b : String,
      (split (a ++ "," ++ b).toList = split a.toList ++ split b.toList ↔
        (a.toList.foldl Nesting.step {}).atTop = true) ∧
      ((a.toList.foldl Nesting.step {}).atTop = true →
        parse (a ++ "," ++ b) = parse a ++ parse b)) ∧
    ∀ text : String, ∀ name ∈ parse text, IsName name.toList := by
  have hc : ∀ a b : String, (a ++ "," ++ b).toList = a.toList ++ ',' :: b.toList := by
    intro a b
    rw [String.toList_append, String.toList_append, List.append_assoc]
    rfl
  refine ⟨fun text => intercalate_splitFrom {} text.toList, fun a b => ⟨?_, fun h => ?_⟩, ?_⟩
  · rw [hc]
    exact split_append_comma_iff _ _
  · rw [parse, hc, names_append_comma (Nesting.atTop_iff.mp h), List.map_append]
    rfl
  · intro text name hn
    obtain ⟨w, hw, rfl⟩ := List.mem_map.mp hn
    rw [names_eq] at hw
    obtain ⟨p, -, hp⟩ := List.mem_filterMap.mp hw
    rw [String.toList_ofList]
    exact isName_of_nameOf? hp

/-- A list with brackets that close nothing, followed by one whose quotation is not closed. -/
theorem parse_unbalanced :
    let a := "é)] $a = \"),(\", array &$b"
    let b := " ?T ...$$c = 'x, $d"
    (a.toList.foldl Nesting.step {}).atTop = true ∧
      parse (a ++ "," ++ b) = ["a", "b"] ++ ["c"] ∧ "c" ∈ parse b ∧ IsName "c".toList := by
  intro a b
  obtain ⟨-, hc, hn⟩ := split_append
  have ht : (a.toList.foldl Nesting.step {}).atTop = true := by decide +kernel
  have ha : parse a = ["a", "b"] := by decide +kernel
  have hb : parse b = ["c"] := by decide +kernel
  have hm : "c" ∈ parse b := by
    rw [hb]
    exact List.mem_singleton_self "c"
  refine ⟨ht, ?_, hm, hn b "c" hm⟩
  rw [(hc a b).2 ht, ha, hb]

end EndpointCatalog.Controller.Parameter
