import EndpointCatalog.Settings.Basic
import EndpointCatalog.Proofs.Text.Casing
import EndpointCatalog.Proofs.Text.FinalSigma
import EndpointCatalog.Proofs.Text.Search

namespace EndpointCatalog.ScanRules

open Text.Search Text.Casing

/-- Whether no path that holds `x` is accepted. -/
def KeepsOut (r : ScanRules) (x : String) : Prop :=
  ∀ p : Path, holds p.text x = true → r.accepts p = false

variable {r : ScanRules} {p : Path} {x : String}

theorem accepts_eq_false (hx : x ∈ r.exclude)
    (h : contains (lower x.toList) (comparable p) = true) : r.accepts p = false := by
  have ha : (r.exclude.any fun x => contains (lower x.toList) (comparable p)) = true :=
    List.any_eq_true.mpr ⟨x, hx, h⟩
  rw [accepts, ha, Bool.not_true, Bool.and_false]

theorem keepsOut_of_isSteady (hx : x ∈ r.exclude) (hb : '\\' ∉ x.toList)
    (hs : IsSteady x.toList) : r.KeepsOut x := by
  intro p hp
  obtain ⟨u, v, huv⟩ := contains_iff.mp hp
  apply accepts_eq_false hx
  rw [comparable, ← huv, replace_append, replace_append, replace_of_notMem hb, contains_iff]
  exact hs.lower_infix _ _

def framed (r : ScanRules) (mid : List Char) : Path :=
  ⟨r.controllersRoot ++ "/" ++ String.ofList mid ++ "/" ++ r.fileSuffix⟩

theorem toList_framed (r : ScanRules) (mid : List Char) :
    (r.framed mid).text.toList =
      r.controllersRoot.toList ++ ['/'] ++ mid ++ (['/'] ++ r.fileSuffix.toList) := by
  simp only [framed, String.toList_append, String.toList_ofList, List.append_assoc]
  rfl

theorem comparable_framed (hr : '\\' ∉ r.controllersRoot.toList) (hs : '\\' ∉ r.fileSuffix.toList)
    (mid : List Char) :
    comparable (r.framed mid) = lower r.controllersRoot.toList ++
      '/' :: (lower (replace '\\' '/' mid) ++ '/' :: lower r.fileSuffix.toList) := by
  have hc : '\\' ∉ ['/'] := by decide
  rw [comparable, toList_framed, replace_append, replace_append, replace_append, replace_append,
    replace_of_notMem hr, replace_of_notMem hs, replace_of_notMem hc, ← lower_append_slash,
    ← lower_append_slash]
  simp only [List.append_assoc, List.cons_append, List.nil_append]

theorem accepts_framed (hr : '\\' ∉ r.controllersRoot.toList) (hs : '\\' ∉ r.fileSuffix.toList)
    (mid : List Char) :
    r.accepts (r.framed mid) =
      !r.exclude.any fun x => contains (lower x.toList) (comparable (r.framed mid)) := by
  have hsuf : (lower r.fileSuffix.toList).isSuffixOf (comparable (r.framed mid)) = true := by
    rw [comparable_framed hr hs, List.isSuffixOf_iff_suffix]
    exact ⟨lower r.controllersRoot.toList ++ '/' :: (lower (replace '\\' '/' mid) ++ ['/']), by simp⟩
  have hroot : contains (lower r.controllersRoot.toList) (comparable (r.framed mid)) = true := by
    rw [comparable_framed hr hs, contains_iff]
    exact (List.prefix_append _ _).isInfix
  rw [accepts, hsuf, hroot, Bool.true_and, Bool.true_and]

/-- An excluded text is missed somewhere if it has a backslash or is not steady. -/
theorem exists_accepts (h : ¬ ('\\' ∉ x.toList ∧ IsSteady x.toList)) :
    ∃ mid, x.toList <:+: mid ∧
      ({ exclude := [x] } : ScanRules).accepts (framed { exclude := [x] } mid) = true := by
  have hr : '\\' ∉ "mvc/app/controllers".toList := by decide +kernel
  have hs : '\\' ∉ "controller.php".toList := by decide +kernel
  have ha : ∀ mid, ¬ lower x.toList <:+: comparable (framed { exclude := [x] } mid) →
      ({ exclude := [x] } : ScanRules).accepts (framed { exclude := [x] } mid) = true := by
    intro mid hm
    rw [accepts_framed (r := { exclude := [x] }) hr hs, List.any_cons, List.any_nil,
      Bool.or_false, Bool.not_eq_true', ← Bool.not_eq_true, contains_iff]
    exact hm
  by_cases hb : '\\' ∈ x.toList
  · -- the path as it is compared has no backslash left
    refine ⟨x.toList, List.infix_refl _, ha _ fun hw => ?_⟩
    have hm : '\\' ∈ lower x.toList := (mem_lower (by decide)).mpr hb
    exact notMem_replace (by decide) _ ((mem_lower (by decide)).mp (hw.subset hm))
  · obtain ⟨y, hy, c, hc, hlt⟩ := exists_count_lt fun hx => h ⟨hb, hx⟩
    have hby : '\\' ∉ y := by
      obtain rfl | rfl := hy <;> simp [hb]
    have hxy : x.toList <:+: y := by
      obtain rfl | rfl := hy
      · exact (List.suffix_cons _ _).isInfix
      · exact (List.prefix_append _ _).isInfix
    refine ⟨y, hxy, ha _ fun hw => ?_⟩
    -- the path as it is compared has fewer of one form of sigma than the excluded text
    have hcr : (lower "mvc/app/controllers".toList).count c = 0 := by
      obtain rfl | rfl := hc <;> decide +kernel
    have hcs : (lower "controller.php".toList).count c = 0 := by
      obtain rfl | rfl := hc <;> decide +kernel
    have hsl : '/' ≠ c := by
      obtain rfl | rfl := hc <;> decide
    have hle := hw.sublist.count_le c
    rw [comparable_framed (r := { exclude := [x] }) hr hs, replace_of_notMem hby, List.count_append,
      List.count_cons_of_ne hsl, List.count_append, List.count_cons_of_ne hsl, hcr, hcs] at hle
    omega

/-- An excluded text keeps out every path that holds it if and only if it has no backslash and is
steady. -/
theorem keepsOut_iff (x : String) :
    ((∀ r : ScanRules, x ∈ r.exclude → r.KeepsOut x) ↔ '\\' ∉ x.toList ∧ IsSteady x.toList) ∧
    (({ exclude := [x] } : ScanRules).KeepsOut x ↔ '\\' ∉ x.toList ∧ IsSteady x.toList) ∧
    ('Σ' ∉ x.toList → IsSteady x.toList) := by
  have hm : x ∈ ({ exclude := [x] } : ScanRules).exclude := List.mem_singleton_self x
  have hall : '\\' ∉ x.toList ∧ IsSteady x.toList → ∀ r : ScanRules, x ∈ r.exclude → r.KeepsOut x :=
    fun h r hx => keepsOut_of_isSteady hx h.1 h.2
  have hone : ({ exclude := [x] } : ScanRules).KeepsOut x → '\\' ∉ x.toList ∧ IsSteady x.toList := by
    intro hk
    by_contra h
    obtain ⟨mid, hx, ha⟩ := exists_accepts h
    have hp : holds (framed { exclude := [x] } mid).text x = true := by
      rw [holds, contains_iff, toList_framed]
      exact hx.trans ⟨_, _, rfl⟩
    rw [hk _ hp] at ha
    cases ha
  refine ⟨⟨fun h => hone (h _ hm), hall⟩, ⟨hone, fun h => hall h _ hm⟩, isSteady_of_notMem⟩

/-- Excluded texts that the rules miss. -/
theorem accepts_excluded :
    let r : ScanRules := { exclude := ["Core\\Api", "ΑΣ"] }
    let p : Path := ⟨"/x/mvc/app/controllers/Core\\Api/FooController.php"⟩
    let q : Path := ⟨"/x/mvc/app/controllers/ΑΣΑ/Api/FooController.php"⟩
    ("Core\\Api" ∈ r.exclude ∧ holds p.text "Core\\Api" = true ∧ r.accepts p = true) ∧
    ("ΑΣ" ∈ r.exclude ∧ holds q.text "ΑΣ" = true ∧ r.accepts q = true) := by
  decide +kernel

end EndpointCatalog.ScanRules
