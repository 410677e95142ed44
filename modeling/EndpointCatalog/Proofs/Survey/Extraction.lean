import EndpointCatalog.Catalog.Survey
import EndpointCatalog.Proofs.Controller.ClassHeader
import EndpointCatalog.Proofs.Controller.Expected
import EndpointCatalog.Proofs.Controller.Literals
import EndpointCatalog.Proofs.Endpoint
import EndpointCatalog.Proofs.Text.Bytes

namespace EndpointCatalog.Survey

open Dialect Text Written

/-- A class as a source; where there is no method the class ends in front of the first. -/
def source (c : Written.Class) : Source where
  opening := c.preamble ++ '\n' :: (c.header ++ '\n' :: ('{' ::
    if c.methods = [] then closing else []))
  members := members c.methods
  opening_isQuiet := by
    have hb : IsQuiet ('{' :: if c.methods = [] then closing else []) := by split <;> decide
    apply IsQuiet.isQuietBelow
    rw [isQuiet_append_cons, isQuiet_append_cons]
    exact ⟨c.preamble_isQuiet, Usual.isQuiet_header c, hb⟩

theorem text_source (c : Written.Class) : (source c).text = c.text := by
  by_cases h : c.methods = []
  · simp [Source.text, source, Written.Class.text, h, members, closing]
  · simp [Source.text, source, Written.Class.text, h, flatMap_text_members h, closing]

theorem ofSource_text (isFile : Path → Bool) (p : Path) (c : Written.Class) :
    Facts.ofSource (ofConventions {}) isFile p c.text =
      c.facts p (Facts.modelOf? (ofConventions {}) isFile p c.text) := by
  simp only [Facts.ofSource, Usual.classOf_text]
  rfl

variable (c : Written.Class) (p : Path) (model? : Option Path)

theorem actions_text :
    (c.facts p model?).actions (ofConventions {}) c.text = c.own p model? := by
  rw [← own_facts, ← text_source, actions_source]
  exact filterMap_found?_members _ c.methods

theorem mem_commands {d : String} : d ∈ (c.own p model?).map (·.command) ↔
    ∃ m ∈ c.methods, m.command? = some d.toList := by
  simp only [Class.own, List.mem_map, List.mem_filterMap, Option.map_eq_some_iff]
  constructor
  · rintro ⟨_, ⟨m, hm, w, hw, rfl⟩, rfl⟩
    exact ⟨m, hm, by rw [hw, Class.endpoint, String.toList_ofList]⟩
  · rintro ⟨m, hm, hw⟩
    exact ⟨_, ⟨m, hm, d.toList, hw, rfl⟩, String.ofList_toList⟩

theorem isEmpty_own : (c.own p model?).isEmpty = !c.methods.any (·.command?.isSome) := by
  rw [Bool.eq_iff_iff]
  simp [Class.own, List.isEmpty_iff]

theorem inherited_endpoints (es : List InheritedEntry) :
    (Inherited.usual.withEntries es).endpoints (c.facts p model?)
      ((c.own p model?).map (·.command)) "service" =
      c.inherited p model? (Inherited.usualEntries ++ es) := by
  have h : ∀ d : String, (!((c.own p model?).map (·.command)).contains d) =
      c.methods.all (·.command? != some d.toList) := fun d => by
    rw [Bool.eq_iff_iff, Bool.not_eq_true', ← Bool.not_eq_true, List.contains_iff_mem, mem_commands]
    simp
  rw [Inherited.endpoints, Class.inherited, Inherited.commandsOf_eq_filterMap, baseClass_facts,
    List.filter_filterMap, List.map_filterMap, List.filterMap_filter]
  apply List.filterMap_congr
  intro d _
  rw [← h]
  cases Inherited.lastVerb? (Inherited.usualEntries ++ es) c.baseClass d with
  | none => exact (ite_self _).symm
  | some verb =>
    rw [Option.map_some, Option.filter_some]
    split
    · rw [Option.map_some, Option.map_some, endpoint_facts]
    · rfl

/-- A class without actions has no endpoints. Otherwise they are those of its actions, with the names
of their parameters, and of the inherited commands that no method answers, in the order of the bytes
of the commands. -/
theorem analyze_text (scan : ScanRules) (entries : List InheritedEntry) (isFile : Path → Bool)
    (p : Path) (c : Written.Class) :
    let v := Survey.ofSettings { scan, inherited := entries }
    let model? := Facts.modelOf? v.dialect isFile p c.text
    let es := c.own p model? ++ c.inherited p model? (Inherited.usualEntries ++ entries)
    (v.analyze isFile p c.text =
      if c.methods.any (·.command?.isSome) then
        es.mergeSort fun a b => Bytes.encode a.command ≤ Bytes.encode b.command
      else []) ∧
    ∀ m ∈ c.methods, ∀ ps trailing, m.parameters = Parameter.listText ps trailing →
      Controller.Parameter.parse (String.ofList m.parameters) =
        ps.map fun q => String.ofList q.name := by
  intro v model? es
  refine ⟨?_, fun m _ ps trailing hm => ?_⟩
  · have hf : Facts.ofSource v.dialect isFile p c.text = c.facts p model? := ofSource_text isFile p c
    have ha : (c.facts p model?).actions v.dialect c.text = c.own p model? :=
      actions_text c p model?
    have hi : v.inherited.endpoints (c.facts p model?) ((c.own p model?).map (·.command))
        "service" = c.inherited p model? (Inherited.usualEntries ++ entries) :=
      inherited_endpoints c p model? entries
    have hm : v.dialect.conventions.serviceMarker = "service" := rfl
    simp only [Survey.analyze, hf, ha, hm, hi, isEmpty_own, Bytes.encode_le_encode]
    cases c.methods.any (·.command?.isSome) <;> rfl
  · rw [hm, Controller.Parameter.parse, String.toList_ofList, Parameter.names_listText,
      List.map_map]
    rfl

theorem modelOf?_of_no_file (d : Dialect) (p : Path) (source : List Char) :
    Facts.modelOf? d (fun _ => false) p source = none := by
  rw [Facts.modelOf?]
  cases Facts.modelClass? d source <;> cases p.ancestor? 5 <;> rfl

def getAction : Written.Method where
  visibility := "public".toList
  name := "getAction".toList
  parameters := []
  body := []
  visibility_mem := by decide
  name_ne_nil := by decide
  name_isWord := List.all_eq_true.mp (by decide)
  parameters_inLine := by decide
  body_isQuiet := by decide

def searchAction : Written.Method :=
  { getAction with
    name := "searchAction".toList
    body := "\n        return $this->searchBase('alias');".toList
    name_ne_nil := by decide
    name_isWord := List.all_eq_true.mp (by decide)
    body_isQuiet := by decide +kernel }

def restParameter : Parameter :=
  { Parameter.plain with
    indent := [' ']
    isReference := true
    isVariadic := true
    name := ['b']
    indent_isBlank := List.all_eq_true.mp (by decide)
    name_ne_nil := by decide
    name_isNamed := List.forall_mem_singleton.mpr (by decide)
    name_notBlank := List.forall_mem_singleton.mpr (by decide)
    name_dollar := by decide }

def addAction : Written.Method :=
  { getAction with
    name := "addAction".toList
    parameters := Parameter.listText [.plain, restParameter] true
    body := "\n        // public\n        return $this->addBase('alias', $a);".toList
    name_ne_nil := by decide
    name_isWord := List.all_eq_true.mp (by decide)
    parameters_inLine := by decide
    body_isQuiet := by decide +kernel }

def helperMethod : Written.Method :=
  { getAction with
    visibility := "private".toList
    name := "checkAlias".toList
    body := "\n        return $this->request->isPost();".toList
    visibility_mem := by decide
    name_ne_nil := by decide
    name_isWord := List.all_eq_true.mp (by decide)
    body_isQuiet := by decide +kernel }

/-- Actions out of order, one of which is a command of the base class as well. -/
def aliasClass : Written.Class where
  preamble := "<?php\nnamespace OPNsense\\Firewall\\Api;\n".toList
  isAbstract := false
  name := "AliasController".toList
  base := "\\OPNsense\\Base\\ApiMutableModelControllerBase".toList
  methods := [searchAction, helperMethod, getAction, addAction]
  name_isWord := List.all_eq_true.mp (by decide)
  name_controller := Text.Search.contains_iff.mp (by decide)
  base_ne_nil := by decide
  base_isName := by
    have h : "\\OPNsense\\Base\\ApiMutableModelControllerBase".toList.all
      fun d => Word.isWord d || d == '\\' := by decide
    simpa using List.all_eq_true.mp h
  base_extends := mt Text.Search.contains_iff.mpr (by decide)
  preamble_extends := by decide +kernel
  preamble_isQuiet := by decide +kernel

def aliasPath : Path :=
  ⟨"/src/opnsense/mvc/app/controllers/OPNsense/Firewall/Api/AliasController.php"⟩

def aliasEndpoint (verb : Verb) (command : String) (parameters : List String) : Endpoint :=
  ⟨verb, "firewall", "alias", false, "ApiMutableModelControllerBase", command, parameters,
    "AliasController.php", none, .resources⟩

theorem endpoint_aliasClass (verb : Verb) (command : String) (parameters : List String) :
    aliasClass.endpoint aliasPath none verb command parameters =
      aliasEndpoint verb command parameters := by
  simp only [Class.endpoint, aliasEndpoint, Endpoint.mk.injEq, true_and]
  decide +kernel

theorem own_aliasClass : aliasClass.own aliasPath none = [aliasEndpoint .any "search" [],
    aliasEndpoint .get "get" [], aliasEndpoint .post "add" ["a", "b"]] := by
  simp only [Class.own, endpoint_aliasClass]
  decide +kernel

theorem analyze_text_unsorted :
    let b := "ApiMutableModelControllerBase"
    let entries : List InheritedEntry := [⟨b, "set", .any⟩, ⟨b, "export", .post⟩]
    addAction ∈ aliasClass.methods ∧
    addAction.parameters = Parameter.listText [.plain, restParameter] true ∧
    Controller.Parameter.parse (String.ofList addAction.parameters) = ["a", "b"] ∧
    (Survey.ofSettings { inherited := entries }).analyze (fun _ => false) aliasPath
      aliasClass.text = [aliasEndpoint .post "add" ["a", "b"], aliasEndpoint .post "export" [],
        aliasEndpoint .get "get" [], aliasEndpoint .any "search" [],
        aliasEndpoint .any "set" []] := by
  intro b entries
  obtain ⟨h, hp⟩ := analyze_text {} entries (fun _ => false) aliasPath aliasClass
  have hm : addAction ∈ [searchAction, helperMethod, getAction, addAction] := by simp
  have ho := hp addAction hm [.plain, restParameter] true rfl
  have ha : aliasClass.methods.any (·.command?.isSome) = true := by decide
  have hi : aliasClass.inherited aliasPath none (Inherited.usualEntries ++ entries) =
      [aliasEndpoint .any "set" [], aliasEndpoint .post "export" []] := by
    simp only [Class.inherited, endpoint_aliasClass]
    decide +kernel
  simp only [modelOf?_of_no_file, ha, own_aliasClass, hi, Bytes.encode_le_encode] at h
  refine ⟨hm, rfl, ho.trans (by decide), h.trans ?_⟩
  simp only [List.cons_append, List.nil_append, List.mergeSort_nil,
    Sorting.mergeSort_cons_eq Endpoint.command_le_trans Endpoint.command_le_total]
  decide

end EndpointCatalog.Survey
