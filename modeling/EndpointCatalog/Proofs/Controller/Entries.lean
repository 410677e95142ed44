import EndpointCatalog.Proofs.Controller.Inherited

namespace EndpointCatalog.Inherited

open Overwriting

def revise (cs : List (String × Verb)) (e : InheritedEntry) : List (String × Verb) :=
  setVerb e.command e.verb cs

theorem keys_foldl_revise (es : List InheritedEntry) {cs : List (String × Verb)}
    (h : (cs.map (·.1)).Nodup) :
    (es.foldl revise cs).map (·.1) = (cs.map (·.1) ++ es.map (·.command)).eraseDups := by
  induction es generalizing cs with
  | nil => rw [List.foldl_nil, List.map_nil, List.append_nil, eraseDups_of_nodup h]
  | cons e es ih =>
    have hn : ((revise cs e).map (·.1)).Nodup := nodup_setVerb e.command e.verb h
    rw [List.foldl_cons, ih hn, List.map_cons]
    by_cases he : e.command ∈ cs.map (·.1)
    · rw [revise, setVerb_eq_upsert, keys_upsert_of_mem he, eraseDups_append_cons_of_mem he]
    · rw [revise, setVerb_eq_upsert, keys_upsert_of_notMem he, List.append_assoc,
        List.singleton_append]

theorem lookup_foldl_revise (es : List InheritedEntry) (cs : List (String × Verb)) (c : String) :
    (es.foldl revise cs).lookup c =
      ((es.filter (·.command = c)).getLast?.map (·.verb)).or (cs.lookup c) := by
  refine get_foldl (·.lookup c) (fun ds e => ?_) es cs
  rw [revise, setVerb_eq_upsert, lookup_upsert]
  simp only [decide_eq_true_eq, eq_comm (a := c)]

def entriesOf (es : List InheritedEntry) (b : String) : List InheritedEntry :=
  es.filter (·.baseClass = b)

theorem insert_eq_upsert (e : InheritedEntry) (rows : List (String × List (String × Verb))) :
    insert e rows = upsert e.baseClass (fun cs? => revise (cs?.getD []) e) rows := by
  induction rows with
  | nil => rfl
  | cons row rows ih =>
    rw [insert, upsert, ih]
    rfl

theorem commandsOf_withEntries (t : Inherited) (es : List InheritedEntry) (b : String) :
    (t.withEntries es).commandsOf b = (entriesOf es b).foldl revise (t.commandsOf b) := by
  induction es generalizing t with
  | nil => rfl
  | cons e es ih =>
    have hc : (t.withEntries (e :: es)).commandsOf b =
        ((⟨insert e t.table⟩ : Inherited).withEntries es).commandsOf b := rfl
    rw [hc, ih, commandsOf, insert_eq_upsert, lookup_upsert, entriesOf, entriesOf, List.filter_cons]
    by_cases he : e.baseClass = b
    · rw [if_pos he.symm, if_pos (decide_eq_true he), List.foldl_cons, Option.getD_some, he]
      rfl
    · rw [if_neg (Ne.symm he), if_neg (Bool.eq_false_iff.mp (decide_eq_false he))]
      rfl

/-- What the base classes bring before any entry, written as entries. -/
def usualEntries : List InheritedEntry :=
  [⟨"ApiMutableModelControllerBase", "set", .post⟩,
    ⟨"ApiMutableModelControllerBase", "get", .get⟩,
    ⟨"ApiMutableServiceControllerBase", "status", .get⟩,
    ⟨"ApiMutableServiceControllerBase", "start", .post⟩,
    ⟨"ApiMutableServiceControllerBase", "stop", .post⟩,
    ⟨"ApiMutableServiceControllerBase", "restart", .post⟩,
    ⟨"ApiMutableServiceControllerBase", "reconfigure", .post⟩]

/-- The commands that entries name for a class, each where it is named first. -/
def named (es : List InheritedEntry) (b : String) : List String :=
  ((entriesOf es b).map (·.command)).eraseDups

/-- The verb in the last entry for a command of a class. -/
def lastVerb? (es : List InheritedEntry) (b c : String) : Option Verb :=
  ((entriesOf es b).filter (·.command = c)).getLast?.map (·.verb)

theorem withEntries_usual (es : List InheritedEntry) :
    usual.withEntries es = ({} : Inherited).withEntries (usualEntries ++ es) := by
  have h : usual = ({} : Inherited).withEntries usualEntries := by decide
  rw [h, withEntries, withEntries, withEntries, List.foldl_append]

theorem keys_commandsOf (es : List InheritedEntry) (b : String) :
    ((usual.withEntries es).commandsOf b).map (·.1) = named (usualEntries ++ es) b := by
  rw [withEntries_usual, commandsOf_withEntries]
  exact keys_foldl_revise _ List.nodup_nil

theorem lookup_commandsOf (es : List InheritedEntry) (b c : String) :
    ((usual.withEntries es).commandsOf b).lookup c = lastVerb? (usualEntries ++ es) b c := by
  rw [withEntries_usual, commandsOf_withEntries, lookup_foldl_revise]
  exact Option.or_none

theorem eq_filterMap_lookup {cs : List (String × Verb)} (h : (cs.map (·.1)).Nodup) :
    cs = (cs.map (·.1)).filterMap fun c => (cs.lookup c).map (c, ·) := by
  induction cs with
  | nil => rfl
  | cons d cs ih =>
    obtain ⟨hd, hcs⟩ := List.nodup_cons.mp h
    have ht : ∀ c ∈ cs.map (·.1), ((d :: cs).lookup c).map (c, ·) = (cs.lookup c).map (c, ·) := by
      intro c hc
      have hne : c ≠ d.1 := by
        rintro rfl
        exact hd hc
      rw [List.lookup_cons, beq_eq_false_iff_ne.mpr hne]
    have hs : ((d :: cs).lookup d.1).map (d.1, ·) = some d := by
      rw [List.lookup_cons_self, Option.map_some]
    rw [List.map_cons, List.filterMap_cons, hs, List.filterMap_congr ht, ← ih hcs]

/-- The commands of a class are those that are named for it, each with its last verb. -/
theorem commandsOf_eq_filterMap (es : List InheritedEntry) (b : String) :
    (usual.withEntries es).commandsOf b = (named (usualEntries ++ es) b).filterMap fun c =>
      (lastVerb? (usualEntries ++ es) b c).map (c, ·) := by
  conv_lhs => rw [eq_filterMap_lookup (nodup_commandsOf es b), keys_commandsOf]
  simp only [lookup_commandsOf]

/-- In a table that has each command of a class once, entries leave it so, the usual table and the
empty one included: the commands of a class come in the order in which the table and then the
entries first name them, each with the verb of the last entry for it, or that of the table. Classes
without entries stay as they are, and entries may as well be added in two goes. -/
theorem commands_withEntries :
    IsTable usual.table ∧ IsTable ({} : Inherited).table ∧
    (∀ t : Inherited, IsTable t.table → ∀ es b,
      let cs := (t.withEntries es).commandsOf b
      (cs.map (·.1)).Nodup ∧
      cs.map (·.1) =
        ((t.commandsOf b).map (·.1) ++ (entriesOf es b).map (·.command)).eraseDups ∧
      (∀ c, cs.lookup c = (((entriesOf es b).filter (·.command = c)).getLast?.map
        (·.verb)).or ((t.commandsOf b).lookup c)) ∧
      ((∀ e ∈ es, e.baseClass ≠ b) → cs = t.commandsOf b)) ∧
    ∀ (t : Inherited) es fs, t.withEntries (es ++ fs) = (t.withEntries es).withEntries fs := by
  refine ⟨isTable_usual, List.forall_mem_nil _, fun t ht es b => ⟨?_, ?_, fun c => ?_, fun he => ?_⟩,
    fun t es fs => ?_⟩
  · exact nodup_of_isTable (isTable_withEntries es ht) b
  · rw [commandsOf_withEntries, keys_foldl_revise _ (nodup_of_isTable ht b)]
  · rw [commandsOf_withEntries, lookup_foldl_revise]
  · have hn : entriesOf es b = [] :=
      List.filter_eq_nil_iff.mpr fun e hm => by rw [decide_eq_false (he e hm)]; exact nofun
    rw [commandsOf_withEntries, hn, List.foldl_nil]
  · rw [withEntries, List.foldl_append]
    rfl

/-- A command of the table keeps its place when its verb is changed twice, between entries for
another class. -/
theorem commands_withEntries_repeated :
    let b := "ApiMutableModelControllerBase"
    let es : List InheritedEntry := [⟨b, "get", .any⟩, ⟨"CustomBase", "ping", .get⟩,
      ⟨b, "search", .get⟩, ⟨b, "get", .post⟩, ⟨"CustomBase", "ping", .any⟩]
    IsTable usual.table ∧ (∀ e ∈ es, e.baseClass ≠ "ApiMutableServiceControllerBase") ∧
    ((usual.withEntries es).commandsOf b).map (·.1) = ["set", "get", "search"] ∧
    ((usual.withEntries es).commandsOf b).lookup "get" = some .post ∧
    ((usual.withEntries es).commandsOf b).lookup "set" = some .post ∧
    (({} : Inherited).withEntries es).commandsOf "CustomBase" = [("ping", .any)] ∧
    (usual.withEntries es).commandsOf "ApiMutableServiceControllerBase" =
      usual.commandsOf "ApiMutableServiceControllerBase" := by
  intro b es
  obtain ⟨hu, -, h, -⟩ := commands_withEntries
  have hs : ∀ e ∈ es, e.baseClass ≠ "ApiMutableServiceControllerBase" := by decide
  obtain ⟨-, hk, hl, -⟩ := h usual hu es b
  refine ⟨hu, hs, hk.trans (by decide), (hl "get").trans (by decide), (hl "set").trans (by decide),
    by decide, ?_⟩
  obtain ⟨-, -, -, hc⟩ := h usual hu es "ApiMutableServiceControllerBase"
  exact hc hs

end EndpointCatalog.Inherited
