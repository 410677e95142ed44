import EndpointCatalog.Controller.Dialect
import EndpointCatalog.Proofs.Text.Blank

namespace EndpointCatalog.Dialect

open Text.Blank Text.Search

/-- Whether a text is a sign on one line, without white space. -/
def IsSign (w : List Char) : Prop := w ≠ [] ∧ w.all (!isBlank ·) = true

instance (w : List Char) : Decidable (IsSign w) := inferInstanceAs (Decidable (_ ∧ _))

theorem isSign_of_mem_verbMarkers : ∀ m ∈ Usual.verbMarkers, IsSign m.1.toList := by decide

theorem IsSign.notMem {w : List Char} (h : IsSign w) {c : Char} (hc : isBlank c = true) : c ∉ w :=
  fun hm => by
    have hn := List.all_eq_true.mp h.2 c hm
    rw [hc] at hn
    cases hn

theorem verbOf_congr (k : Conventions) {x y : List Char}
    (h : ∀ m ∈ Usual.verbMarkers, contains m.1.toList x = contains m.1.toList y) :
    (ofConventions k).verbOf x = (ofConventions k).verbOf y := by
  have hf : (Usual.verbMarkers.find? fun m => contains m.1.toList x) =
      Usual.verbMarkers.find? fun m => contains m.1.toList y := by
    generalize Usual.verbMarkers = ms at h
    induction ms with
    | nil => rfl
    | cons m ms ih =>
      rw [List.find?_cons, List.find?_cons, h m (by simp), ih fun w hw => h w (by simp [hw])]
  simp only [verbOf, ofConventions, hf]

theorem contains_nil {w : List Char} (hw : IsSign w) : contains w [] = false := by
  rw [contains, List.isEmpty_eq_false_iff]
  exact hw.1

theorem contains_append_blanks {w : List Char} (hw : IsSign w) (x : List Char) {y : List Char}
    (hy : ∀ c ∈ y, isBlank c = true) : contains w (x ++ y) = contains w x := by
  induction y generalizing x with
  | nil => rw [List.append_nil]
  | cons c y ih =>
    obtain ⟨hc, hy⟩ := List.forall_mem_cons.mp hy
    have hn := ih [] hy
    rw [List.nil_append, contains_nil hw] at hn
    rw [contains_append_cons (hw.notMem hc), hn, Bool.or_false]

end EndpointCatalog.Dialect
