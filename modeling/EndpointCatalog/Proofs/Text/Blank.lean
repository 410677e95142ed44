import EndpointCatalog.Proofs.Text.Search

namespace EndpointCatalog.Text.Blank

variable {x w : List Char}

theorem words_append_cons {c : Char} (hc : isBlank c = true) (x y : List Char) :
    words (x ++ c :: y) = words x ++ words y := by
  rw [words, List.splitOnP_append_cons _ _ hc, List.filter_append]
  rfl

theorem words_of_ne_nil (hn : w ≠ []) (hw : ∀ c ∈ w, isBlank c = false) : words w = [w] := by
  rw [words, List.splitOnP_eq_singleton hw, List.filter_cons_of_pos (by simpa using hn)]
  rfl

theorem words_blanks_append (hw : ∀ c ∈ w, isBlank c = true) (x : List Char) :
    words (w ++ x) = words x := by
  induction w with
  | nil => rfl
  | cons c w ih =>
    obtain ⟨hc, hw⟩ := List.forall_mem_cons.mp hw
    exact (words_append_cons hc [] (w ++ x)).trans (ih hw)

theorem words_append_blanks (x : List Char) (hw : ∀ c ∈ w, isBlank c = true) :
    words (x ++ w) = words x := by
  cases w with
  | nil => rw [List.append_nil]
  | cons c w =>
    obtain ⟨hc, hw⟩ := List.forall_mem_cons.mp hw
    have h := words_blanks_append hw []
    rw [List.append_nil] at h
    rw [words_append_cons hc, h]
    exact List.append_nil _

theorem words_trim (cs : List Char) : words (trim cs) = words cs := by
  have hb : ∀ cs : List Char, ∀ c ∈ cs.takeWhile isBlank, isBlank c = true := fun _ =>
    List.all_eq_true.mp List.all_takeWhile
  have hs : words (trimStart cs) = words cs := by
    rw [← words_blanks_append (hb cs) (trimStart cs), trimStart, List.takeWhile_append_dropWhile]
  have he : ∀ cs, words (trimEnd cs) = words cs := fun cs => by
    have hr : ∀ c ∈ (cs.reverse.takeWhile isBlank).reverse, isBlank c = true := fun c hc =>
      hb _ c (List.mem_reverse.mp hc)
    rw [← words_append_blanks (trimEnd cs) hr, trimEnd, ← List.reverse_append,
      List.takeWhile_append_dropWhile, List.reverse_reverse]
  rw [trim, he, hs]

theorem forall_of_mem_words {cs : List Char} (h : w ∈ words cs) :
    w ≠ [] ∧ ∀ c ∈ w, c ∈ cs ∧ isBlank c = false := by
  obtain ⟨hs, hn⟩ := List.mem_filter.mp h
  refine ⟨fun he => ?_, Search.forall_of_mem_splitOnP hs⟩
  rw [he] at hn
  cases hn

theorem getLast?_words_append (hx : ∀ c ∈ x.getLast?, isBlank c = true) (hn : w ≠ [])
    (hw : ∀ c ∈ w, isBlank c = false) : (words (x ++ w)).getLast? = some w := by
  obtain rfl | ⟨y, c, rfl⟩ := List.eq_nil_or_concat x
  · rw [List.nil_append, words_of_ne_nil hn hw]
    rfl
  · have hc : isBlank c = true := hx c (by simp)
    rw [List.concat_eq_append, List.append_assoc, List.singleton_append, words_append_cons hc,
      words_of_ne_nil hn hw, List.getLast?_concat]

end EndpointCatalog.Text.Blank
