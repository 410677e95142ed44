import EndpointCatalog.Proofs.Controller.Camel
import EndpointCatalog.Proofs.Controller.Entries
import EndpointCatalog.Proofs.Controller.Methods

namespace EndpointCatalog.Written

open Dialect Text.Blank Text.Search

variable (c : Class) (p : Path) (model? : Option Path)

def postMarkers : List String :=
  ["request->isPost(", "$this->delBase", "$this->addBase", "$this->setBase", "$this->toggleBase"]

def Method.verb (m : Method) : Verb :=
  if ∃ w ∈ postMarkers, w.toList <:+: m.body then .post
  else if "$this->searchBase".toList <:+: m.body then .any
  else .get

theorem verbOf_body (m : Method) : (ofConventions {}).verbOf m.body = m.verb := by
  have hc : ∀ w, contains w m.body = decide (w <:+: m.body) := fun w => by
    rw [Bool.eq_iff_iff, contains_iff, decide_eq_true_iff]
  have hs : Usual.verbMarkers =
      postMarkers.map (·, Verb.post) ++ [("$this->searchBase", Verb.any)] := rfl
  rw [verbOf, Method.verb]
  simp only [ofConventions, hs, hc]
  generalize postMarkers = ws, "$this->searchBase" = s
  induction ws with
  | nil =>
    by_cases h : s.toList <:+: m.body
    · simp [h]
    · simp [h]
  | cons w ws ih =>
    by_cases h : w.toList <:+: m.body
    · simp [h]
    · simpa [h] using ih

/-- A file name in front of the suffix, in whatever case that is. -/
def stem (name : List Char) : List Char :=
  name.take ((name.map Char.toLower).tails.findIdx ("controller.php".toList <+: ·))

/-- In lower case, with `_` before each capital but a first one. -/
def underscored (cs : List Char) : List Char :=
  cs.zipIdx.flatMap fun c => if c.1.isUpper ∧ 0 < c.2 then ['_', c.1.toLower] else [c.1.toLower]

theorem stemOf_eq (name : List Char) : Facts.stemOf name "Controller.php".toList = stem name := by
  have hl : Facts.lowered "Controller.php".toList = "controller.php".toList := by decide
  have hn : "controller.php".toList ≠ [] := by decide
  have hp : Facts.leads "Controller.php".toList = fun cs =>
      decide ("controller.php".toList <+: cs.map Char.toLower) := by
    funext cs
    rw [Bool.eq_iff_iff, Facts.leads_iff, hl, decide_eq_true_iff]
    rfl
  rw [Facts.stemOf, stem, hp]
  generalize "controller.php".toList = l at hn
  induction name with
  | nil => simp [before?, hn]
  | cons c cs ih =>
    rw [before?, List.map_cons, List.tails_cons, List.findIdx_cons]
    by_cases h : l <+: c.toLower :: cs.map Char.toLower
    · simp [h]
    · simp [h, ih]

theorem snakeTail_eq (k : Nat) (cs : List Char) : Facts.snakeTail cs =
    (cs.zipIdx (k + 1)).flatMap fun c =>
      if c.1.isUpper ∧ 0 < c.2 then ['_', c.1.toLower] else [c.1.toLower] := by
  induction cs generalizing k with
  | nil => rfl
  | cons c cs ih =>
    rw [Facts.snakeTail, List.zipIdx_cons, List.flatMap_cons, ← ih]
    by_cases h : c.isUpper <;> simp [h]

theorem snake_eq (cs : List Char) : Facts.snake cs = underscored cs := by
  cases cs with
  | nil => rfl
  | cons c cs =>
    rw [Facts.snake, underscored, List.zipIdx_cons, List.flatMap_cons, ← snakeTail_eq]
    simp

theorem lastSegment_eq (cs : List Char) :
    Facts.lastSegment cs = (cs.splitOn '\\').getLastD [] := by
  by_cases h : '\\' ∈ cs
  · obtain ⟨hc, hn⟩ := cut_at_last h
    have hs : cs.splitOn '\\' = (beforeLast '\\' cs).splitOn '\\' ++ [behindLast '\\' cs] := by
      conv_lhs => rw [hc]
      rw [List.splitOn_append_cons_self, List.splitOn_eq_singleton hn]
    rw [hs, List.getLastD_concat]
    rfl
  · have hr : ∀ d ∈ cs.reverse, decide (d ≠ '\\') = true := fun d hd =>
      decide_eq_true fun he => h (he ▸ List.mem_reverse.mp hd)
    rw [List.splitOn_eq_singleton h, Facts.lastSegment, List.takeWhile_eq_self_iff.mpr hr,
      List.reverse_reverse]
    rfl

def Class.baseClass : String := String.ofList ((c.base.splitOn '\\').getLastD [])

theorem baseClass_facts : (c.facts p model?).baseClass = c.baseClass := by
  rw [Class.baseClass, ← lastSegment_eq]
  rfl

/-- An endpoint of the class at a path, by what the path and the class say about all of them. -/
def Class.endpoint (verb : Verb) (command : String) (parameters : List String) : Endpoint :=
  let fileName := p.fileName?.getD ""
  let controller := underscored (stem fileName.toList)
  { verb := verb
    module := (p.components.reverse[2]?.map fun d => Text.Casing.lowercase d.text).getD ""
    controller := String.ofList controller
    isAbstract := c.isAbstract
    baseClass := c.baseClass
    command := command
    parameters := parameters
    fileName := fileName
    modelFile? := model?
    kind :=
      if c.isAbstract then .abstract
      else if "service".toList <:+: controller then .service
      else .resources }

def Class.own : List Endpoint :=
  c.methods.filterMap fun m => m.command?.map fun w =>
    c.endpoint p model? m.verb (String.ofList w)
      (Controller.Parameter.parse (String.ofList m.parameters))

/-- The endpoints of the commands that are named for the base class and no method answers. -/
def Class.inherited (es : List InheritedEntry) : List Endpoint :=
  let free := (Inherited.named es c.baseClass).filter fun d =>
    c.methods.all (·.command? != some d.toList)
  free.filterMap fun d => (Inherited.lastVerb? es c.baseClass d).map fun verb =>
    c.endpoint p model? verb d []

theorem classify_ofList (isAbstract : Bool) (controller : List Char) (marker : String) :
    Kind.classify isAbstract (String.ofList controller) marker =
      if isAbstract then .abstract
      else if marker.toList <:+: controller then .service
      else .resources := by
  simp only [Kind.classify, holds, String.toList_ofList, contains_iff]

theorem endpoint_facts (verb : Verb) (command : String) (parameters : List String) :
    let f := c.facts p model?
    f.endpoint (f.kind "service") verb command parameters =
      c.endpoint p model? verb command parameters := by
  intro f
  have hm : f.module = (p.components.reverse[2]?.map fun d =>
      Text.Casing.lowercase d.text).getD "" := by
    have h : f.module = Facts.moduleOf p := rfl
    rw [h, Facts.moduleOf]
    cases p.components.reverse[2]? <;> rfl
  have hc : f.controller = String.ofList (underscored (stem (p.fileName?.getD "").toList)) := by
    rw [← snake_eq, ← stemOf_eq]
    rfl
  rw [Facts.endpoint, Facts.kind, hm, hc, baseClass_facts, classify_ofList]
  rfl

theorem own_facts : c.methods.filterMap (·.endpoint? (c.facts p model?)) = c.own p model? := by
  apply List.filterMap_congr
  intro m _
  rw [Method.endpoint?, verbOf_body, Controller.Parameter.parse, String.toList_ofList]
  apply congrArg (Option.map · m.command?)
  funext w
  apply endpoint_facts

end EndpointCatalog.Written
