import EndpointCatalog.Path.Basic
import EndpointCatalog.Proofs.Text.Search

namespace EndpointCatalog.Path

open Text.Blank Text.Search

theorem toList_of_component? {w : List Char} {s : String} (h : component? w = some (.name s)) :
    s.toList = w := by
  rw [component?] at h
  split at h
  · cases h
  split at h
  · cases h
  · cases h
    exact String.toList_ofList

theorem mem_segments_of_name {p : Path} {s : String} (h : Component.name s ∈ p.components) :
    s.toList ∈ p.segments := by
  have hf : ∀ {ss : List (List Char)}, Component.name s ∈ ss.filterMap component? →
      s.toList ∈ ss := by
    intro ss hm
    obtain ⟨w, hw, hc⟩ := List.mem_filterMap.mp hm
    rwa [toList_of_component? hc]
  rw [components] at h
  split at h
  · rename_i w ws hs
    rw [hs]
    obtain h | h := List.mem_cons.mp h
    · cases h
    · exact List.mem_cons_of_mem _ (hf h)
  · rename_i ws hs
    rw [hs]
    obtain h | h := List.mem_cons.mp h
    · cases h
    · exact List.mem_cons_of_mem _ (hf h)
  · exact hf h

theorem slash_notMem_name {p : Path} {s : String} (h : Component.name s ∈ p.components) :
    '/' ∉ s.toList :=
  notMem_of_mem_splitOn (mem_segments_of_name h)

theorem slash_notMem_text {p : Path} {c : Component} (h : c ∈ p.components) :
    c = .root ∨ '/' ∉ c.text.toList := by
  cases c with
  | root => exact .inl rfl
  | here => exact .inr (by decide)
  | up => exact .inr (by decide)
  | name s => exact .inr (slash_notMem_name h)

theorem slash_notMem_fileName (p : Path) : '/' ∉ (p.fileName?.getD "").toList := by
  rw [fileName?]
  split
  · rename_i s h
    exact slash_notMem_name (List.mem_of_getLast? h)
  · decide

end EndpointCatalog.Path
