import EndpointCatalog.Proofs.Controller.Strewn
import EndpointCatalog.Proofs.Survey.Models

namespace EndpointCatalog.Survey

open Text.Bytes

/-- Stray bytes in the preamble and in the bodies change nothing but the model. -/
theorem analyzeFile_strewn (scan : ScanRules) (entries : List InheritedEntry) (w : Workspace)
    (p : Path) (c : Strewn.Class) (h : w.read p = .ok c.bytes) :
    let v := Survey.ofSettings { scan, inherited := entries }
    ∃ es, v.analyzeFile w p = .ok es ∧
      es.map Endpoint.withoutModel =
        (v.analyze w.isFile p (plain c.bytes)).map Endpoint.withoutModel := by
  intro v
  have ha : ∀ f : Facts, f.actions v.dialect (read c.bytes) = f.actions v.dialect (plain c.bytes) :=
    c.actions_bytes isReading_read
  refine ⟨v.analyze w.isFile p (read c.bytes), ?_, ?_⟩
  · rw [analyzeFile, h, ← toList_decodeLossy]
  · by_cases hm : c.methods = []
    · have hn : ∀ f : Facts, f.actions v.dialect (plain c.bytes) = [] :=
        c.actions_bytes_of_methods_eq_nil hm
      rw [analyze_eq_nil w.isFile p hn, analyze_eq_nil w.isFile p fun f => (ha f).trans (hn f)]
    · have hr := c.classOf_bytes isReading_read hm {}
      have hp := c.classOf_bytes isReading_plain hm {}
      exact map_withoutModel_analyze w.isFile p (hr.trans hp.symm) ha

/-- A byte of another encoding in a comment and one in front of a marker. -/
theorem analyzeFile_latin1 :
    let preamble := written "<?php // caf".toList ++ 0xE9 :: written "!".toList
    let header := "\nclass BarController extends Base\n\x7b\n    public function setAction($id)"
    let body := written "\n    \x7b\n        ".toList ++
      0xFF :: written "$this->setBase($id);\n    \x7d\n\x7d\n".toList
    let bytes := preamble ++ (written header.toList ++ body)
    let w : Workspace := { tree := .dir [("BarController.php", .file bytes)] }
    let v := Survey.ofSettings {}
    w.read ⟨"BarController.php"⟩ = .ok bytes ∧
      ∃ es, v.analyzeFile w ⟨"BarController.php"⟩ = .ok es ∧ es.map Endpoint.withoutModel =
        (v.analyze w.isFile ⟨"BarController.php"⟩ (plain bytes)).map Endpoint.withoutModel := by
  intro preamble header body bytes w v
  let m : Strewn.Method :=
    { visibility := "public".toList
      name := "setAction".toList
      parameters := "$id".toList
      body := body
      visibility_mem := by decide
      name_ne_nil := by decide
      name_isWord := List.all_eq_true.mp (by decide)
      name_isAscii := by decide
      parameters_isAscii := by decide
      parameters_inLine := by decide
      body_head := fun d hd => Option.some.inj <|
        hd.symm.trans (by decide +kernel : (plain body).head? = some '\n')
      body_isQuiet := by decide +kernel
      body_isWhole := by decide +kernel }
  let c : Strewn.Class :=
    { preamble := preamble
      isAbstract := false
      name := "BarController".toList
      base := "Base".toList
      opening := written "\n\x7b".toList
      methods := [m]
      name_isAscii := by decide
      name_isWord := List.all_eq_true.mp (by decide)
      name_controller := Text.Search.contains_iff.mp (by decide)
      base_isAscii := by decide
      base_ne_nil := by decide
      base_isName := fun d hd => .inl <|
        List.all_eq_true.mp (by decide : "Base".toList.all Text.Word.isWord) d hd
      base_extends := mt Text.Search.contains_iff.mpr (by decide)
      preamble_extends := by decide +kernel
      preamble_isQuiet := by decide +kernel
      opening_head := fun b hb => (Option.some.inj hb).symm
      opening_isQuiet := by decide +kernel }
  have hc : c.bytes = bytes := by decide +kernel
  have hr : ∀ b, Workspace.read { tree := .dir [("BarController.php", .file b)] }
    ⟨"BarController.php"⟩ = .ok b := fun _ => rfl
  have h := analyzeFile_strewn {} [] w ⟨"BarController.php"⟩ c (hc ▸ hr bytes)
  rw [hc] at h
  exact ⟨hr bytes, h⟩

end EndpointCatalog.Survey
