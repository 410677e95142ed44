import EndpointCatalog.Controller.Facts
import EndpointCatalog.Proofs.Path.Components
import EndpointCatalog.Proofs.Text.Casing

namespace EndpointCatalog.Facts

open Text.Casing Text.Search

theorem slash_notMem_moduleOf (p : Path) : moduleOf p = "/" ∨ '/' ∉ (moduleOf p).toList := by
  rw [moduleOf]
  split
  · rename_i c h
    have hc : c ∈ p.components := List.mem_reverse.mp (List.mem_of_getElem? h)
    obtain rfl | hs := Path.slash_notMem_text hc
    · exact .inl (by decide)
    · exact .inr (slash_notMem_lowercase hs)
  · exact .inr (by decide)

theorem slash_notMem_snake {cs : List Char} (h : '/' ∉ cs) : '/' ∉ snake cs := by
  have hl : ∀ {c : Char}, '/' ≠ c → '/' ≠ c.toLower := fun hc he =>
    hc ((toLower_eq_sign (by decide)).mp he.symm).symm
  have ht : ∀ {cs : List Char}, '/' ∉ cs → '/' ∉ snakeTail cs := by
    intro cs h
    induction cs with
    | nil => exact List.not_mem_nil
    | cons c cs ih =>
      rw [List.mem_cons, not_or] at h
      rw [snakeTail]
      split
      · rw [List.mem_cons, List.mem_cons, not_or, not_or]
        exact ⟨by decide, hl h.1, ih h.2⟩
      · rw [List.mem_cons, not_or]
        exact ⟨hl h.1, ih h.2⟩
  cases cs with
  | nil => exact List.not_mem_nil
  | cons c cs =>
    rw [List.mem_cons, not_or] at h
    rw [snake, List.mem_cons, not_or]
    exact ⟨hl h.1, ht h.2⟩

theorem prefix_stemOf (fileName suffix : List Char) : stemOf fileName suffix <+: fileName := by
  rw [stemOf]
  cases h : before? (leads suffix) fileName with
  | none => exact List.prefix_refl fileName
  | some w => exact prefix_of_before? h

theorem slash_notMem_controllerOf {fileName : String} (suffix : String)
    (h : '/' ∉ fileName.toList) : '/' ∉ (controllerOf fileName suffix).toList := by
  rw [controllerOf, String.toList_ofList]
  exact slash_notMem_snake fun hm => h ((prefix_stemOf _ _).subset hm)

end EndpointCatalog.Facts
