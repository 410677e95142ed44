import EndpointCatalog.Proofs.Controller.Returns
import EndpointCatalog.Proofs.Survey.Models

namespace EndpointCatalog

open Text Text.Search Written

theorem Written.exists_line_of_infix {w cs : List Char} (hw : '\n' ∉ w) (h : w ++ ['\n'] <:+: cs) :
    ∃ l ∈ lines cs, w <:+ l := by
  obtain ⟨x, y, rfl⟩ := h
  have hs : ∀ z, '\n' ∉ z → lines (z ++ w ++ '\n' :: y) = (z ++ w) :: lines y := by
    intro z hz
    have hzw : '\n' ∉ z ++ w := by
      rw [List.mem_append, not_or]
      exact ⟨hz, hw⟩
    rw [lines_append_cons, lines, List.splitOn_eq_singleton hzw]
    rfl
  rw [← List.append_assoc, List.append_assoc, List.singleton_append]
  by_cases hx : '\n' ∈ x
  · obtain ⟨a, b, rfl, hb⟩ : ∃ a b, x = a ++ '\n' :: b ∧ '\n' ∉ b := ⟨_, _, cut_at_last hx⟩
    refine ⟨b ++ w, ?_, List.suffix_append _ _⟩
    rw [List.append_assoc, List.append_assoc, List.cons_append, lines_append_cons,
      ← List.append_assoc, hs b hb]
    exact List.mem_append_right _ List.mem_cons_self
  · refine ⟨x ++ w, ?_, List.suffix_append _ _⟩
    rw [hs x hx]
    exact List.mem_cons_self

namespace Survey

/-- Where no line ends with `extends`, carriage returns in front of the breaks of a source change
nothing but the model. -/
theorem analyze_withReturns (s : Settings) (isFile : Path → Bool) (p : Path) (source : List Char)
    (h : ∀ l ∈ lines source, ¬ "extends".toList <:+ l) :
    ((Survey.ofSettings s).analyze isFile p (withReturns source)).map Endpoint.withoutModel =
      ((Survey.ofSettings s).analyze isFile p source).map Endpoint.withoutModel := by
  have he : ¬ "extends".toList ++ ['\n'] <:+: source := fun hm => by
    obtain ⟨l, hl, hs⟩ := exists_line_of_infix (by decide) hm
    exact h l hl hs
  apply map_withoutModel_analyze
  · exact Facts.classOf_withReturns s.conventions he
  · exact fun f => Facts.actions_withReturns s.conventions f source

theorem analyze_withReturns_of_one_action :
    let source := "<?php\nclass BarController extends Base\n\x7b\n    public function setAction($id)\n" ++
      "    \x7b\n        return $this->setBase($id);\n    \x7d\n\x7d\n"
    let analyze := (Survey.ofSettings {}).analyze (fun _ => false) ⟨"Foo/Api/BarController.php"⟩
    (∀ l ∈ lines source.toList, ¬ "extends".toList <:+ l) ∧
      (analyze (withReturns source.toList)).map Endpoint.withoutModel =
        (analyze source.toList).map Endpoint.withoutModel := by
  intro source analyze
  have hs : source.toList = _ := String.toList_append
  have h : ∀ l ∈ lines source.toList, ¬ "extends".toList <:+ l := by
    rw [hs]
    decide +kernel
  exact ⟨h, analyze_withReturns {} _ _ _ h⟩

end Survey

end EndpointCatalog
