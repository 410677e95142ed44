import EndpointCatalog.Controller.Action
import EndpointCatalog.Proofs.Controller.ClassHeader
import EndpointCatalog.Proofs.Controller.MethodHeader
import EndpointCatalog.Proofs.Controller.Verbs
import EndpointCatalog.Proofs.Pattern.Returns

namespace EndpointCatalog

open Text Text.Returns Text.Search Pattern Dialect Written

namespace Dialect.Usual

variable {source : List Char}

theorem isBlind_char {c : Char} (hc : c ≠ '\n') : IsBlind (char c) := fun o cs =>
  runs_char_eq_nil o hc.symm cs

theorem isBlind_namePart : IsBlind namePart := fun o cs => namePart_runs_eq_nil (by rfl) o cs

theorem isBlind_functionWord (q : Pattern) : IsBlind (seq (literal "function") q) :=
  isBlind_seq_chars (w := "function".toList) (by decide) (by decide)

theorem isBlind_visibilityPart : IsBlind (seq (group 2 visibility) functionPart) := by
  intro o cs
  have hn : visibility.runs ⟨o, '\n' :: cs⟩ = [] := visibility_runs_eq_nil fun k hk hp => by
    obtain ⟨z, hz⟩ := hp
    obtain rfl | rfl | rfl := visibility_of_mem hk <;> cases hz
  rw [runs_seq_group, hn]
  rfl

theorem mirrors_parametersPart : Mirrors source parametersPart := by
  have hp : Mirrors source (char ')') := mirrors_chars (w := [')']) (by decide) (by decide)
  apply mirrors_seq_chars (w := ['(']) (by decide) (by decide)
  exact mirrors_seq_group_star 4 (by rfl) hp fun _ => isBlind_char (by decide)

theorem mirrors_namePart : Mirrors source namePart :=
  mirrors_seq_group_plus 3 (by rfl) mirrors_parametersPart fun h => absurd h (by decide)

theorem mirrors_seq_blanks {q : Pattern} (hq : Mirrors source q) (hb : IsBlind q) :
    Mirrors source (seq blanks q) :=
  mirrors_seq_plus (fun _ => by rfl) hq hb

theorem mirrors_functionPart : Mirrors source functionPart := by
  have hn : Mirrors source (seq blanks namePart) :=
    mirrors_seq_blanks mirrors_namePart isBlind_namePart
  have hf : Mirrors source (seq (literal "function") (seq blanks namePart)) :=
    mirrors_seq_chars (w := "function".toList) (by decide) (by decide) hn
  exact mirrors_seq_blanks hf (isBlind_functionWord _)

theorem mirrors_visibility : Mirrors source visibility :=
  mirrors_alt (mirrors_chars (w := "private".toList) (by decide) (by decide))
    (mirrors_alt (mirrors_chars (w := "public".toList) (by decide) (by decide))
      (mirrors_chars (w := "protected".toList) (by decide) (by decide)))

theorem upTo_of_mem_runs_chars {w : List Char} {a : Cursor} {r : Run}
    (h : r ∈ (concat (w.map char)).runs a) : a.upTo r.stop = w := by
  obtain ⟨o, cs⟩ := a
  rw [← runs_seq_empty] at h
  by_cases hp : w <+: cs
  · obtain ⟨y, rfl⟩ := hp
    rw [runs_seq_chars_append, runs, List.mem_singleton] at h
    rw [h, upTo_append]
  · rw [runs_seq_chars_eq_nil _ _ hp] at h
    cases h

theorem mirrors_visibilityPart : Mirrors source (seq (group 2 visibility) functionPart) := by
  apply mirrors_seq (mirrors_group 2 mirrors_visibility ?_) mirrors_functionPart
  intro a r hr
  obtain hr | hr := List.mem_append.mp hr
  · rw [upTo_of_mem_runs_chars (w := "private".toList) hr]
    decide
  obtain hr | hr := List.mem_append.mp hr
  · rw [upTo_of_mem_runs_chars (w := "public".toList) hr]
    decide
  · rw [upTo_of_mem_runs_chars (w := "protected".toList) hr]
    decide

def methodPart : Pattern := seq blanks (seq (group 2 visibility) functionPart)

theorem mirrors_methodPart : Mirrors source methodPart :=
  mirrors_seq_blanks mirrors_visibilityPart isBlind_visibilityPart

theorem mirrors_extendsPart (h : ¬ "extends".toList ++ ['\n'] <:+: source) :
    Mirrors source extendsPart := by
  have hn : (CharSet.union .word (.union (.single '|') (.single '\\'))).contains '\n' = false := by
    decide
  have hr : (CharSet.union .word (.union (.single '|') (.single '\\'))).contains '\r' = false := by
    decide
  have hc : Mirrors source (group 2 className) := mirrors_group_star 2 hn hr
  rintro ⟨o, cs⟩ hcs
  dsimp only at hcs ⊢
  by_cases hp : "extends".toList <+: cs
  · obtain ⟨y, rfl⟩ := hp
    obtain ⟨o', ht, hy⟩ := exists_twin_append hcs
    have hys : y <:+ source := (List.suffix_append _ _).trans hcs
    rw [withReturns_of_notMem (by decide)] at ht hy
    rw [extendsPart, ht, runs_seq_literal_append, runs_seq_literal_append, ← hy]
    cases y with
    | nil => rfl
    | cons c z =>
      -- What follows is on the same line, so it is no return either.
      have hne : c ≠ '\n' := by
        rintro rfl
        obtain ⟨x, hx⟩ := hcs
        exact h ⟨x, z, by rw [← hx]; simp⟩
      obtain ⟨p, hc', hz⟩ := exists_twin_cons hne hys
      have hz' := hc ⟨o + "extends".toList.length + 1, z⟩ ((List.suffix_cons c z).trans hys)
      dsimp only at hz'
      rw [hc', runs_seq, runs_seq, blank, runs_one_cons, runs_one_cons]
      split
      · rw [List.flatMap_singleton, List.flatMap_singleton, map_andThen_no_groups,
          map_andThen_no_groups, ← hz, hz']
      · rfl
  · have hp' : ¬ "extends".toList <+: withReturns cs :=
      mt (prefix_withReturns_iff (by decide) (by decide)).mp hp
    rw [extendsPart, runs_seq_literal_eq_nil _ _ hp, Cursor.twin, runs_seq_literal_eq_nil _ _ hp']
    rfl

theorem mirrors_seq_restOfLine {q : Pattern} (hq : Mirrors source q) (hb : IsBlind q) :
    Mirrors source (seq restOfLine q) :=
  mirrors_seq_star (fun h => absurd h (by decide)) hq hb

theorem mirrors_restOfLine_chars {w : List Char} (hw : w ≠ []) (hn : '\n' ∉ w) (hr : '\r' ∉ w)
    {q : Pattern} (hq : Mirrors source q) :
    Mirrors source (seq restOfLine (seq (concat (w.map char)) q)) :=
  mirrors_seq_restOfLine (mirrors_seq_chars hn hr hq) (isBlind_seq_chars hw hn)

theorem mirrors_afterWord (h : ¬ "extends".toList ++ ['\n'] <:+: source) :
    Mirrors source afterWord := by
  have he : IsBlind extendsPart :=
    isBlind_seq_chars (w := "extends".toList) (by decide) (by decide)
  have hn : Mirrors source afterName := mirrors_seq_restOfLine (mirrors_extendsPart h) he
  have hc : Mirrors source afterClass :=
    mirrors_restOfLine_chars (w := "Controller".toList) (by decide) (by decide) (by decide) hn
  exact mirrors_restOfLine_chars (w := "class".toList) (by decide) (by decide) (by decide) hc

theorem mirrors_classPart (h : ¬ "extends".toList ++ ['\n'] <:+: source) :
    Mirrors source (seq (group 1 words) afterWord) :=
  mirrors_seq_group_star 1 (by rfl) (mirrors_afterWord h) fun h => absurd h (by decide)

end Dialect.Usual

open Dialect.Usual

theorem Facts.classOf_withReturns (k : Conventions) {source : List Char}
    (h : ¬ "extends".toList ++ ['\n'] <:+: source) :
    Facts.classOf (ofConventions k) (withReturns source) =
      Facts.classOf (ofConventions k) source := by
  have hf : (ofConventions k).classHeader.find? (withReturns source) =
      ((ofConventions k).classHeader.find? source).map (Match.twin source) :=
    find?_withReturns (mirrors_classPart h)
  rw [Facts.classOf, Facts.classOf, hf]
  cases (ofConventions k).classHeader.find? source <;> rfl

namespace Method

/-- The method as it is found where the source has returns. -/
def twin (source : List Char) (m : Method) : Method :=
  { m with
    start := ⟨(Cursor.twin source m.start.rest).offset + 1, (withReturns m.start.rest).tail⟩
    stop := Cursor.twin source m.stop.rest }

theorem ofMatch?_inGroup (m : Match) : ofMatch? (inGroup 1 m) = ofMatch? m := rfl

theorem ofMatch?_twin (source : List Char) (m : Match) :
    ofMatch? (m.twin source) = (ofMatch? m).map (twin source) := by
  rw [ofMatch?, ofMatch?, Option.map_map]
  rfl

theorem all_eq (k : Conventions) (source : List Char) :
    all (ofConventions k) source =
      ((seq (char '\n') methodPart).findAll source).filterMap ofMatch? := by
  have h : (ofConventions k).methodHeader.findAll source =
      ((seq (char '\n') methodPart).findAll source).map (inGroup 1) := findAllFrom_group _ _ _ _ _
  rw [all, h, List.filterMap_map]
  exact congrArg (List.filterMap · _) (funext ofMatch?_inGroup)

theorem all_withReturns (k : Conventions) (source : List Char) :
    all (ofConventions k) (withReturns source) = (all (ofConventions k) source).map (twin source) := by
  rw [all_eq, all_eq, findAll_withReturns mirrors_methodPart, List.filterMap_map,
    List.map_filterMap]
  exact congrArg (List.filterMap · _) (funext (ofMatch?_twin source))

/-- Whether methods stand in a source, one below the other, each from a break on. -/
structure AreIn (source : List Char) (ms : List Method) : Prop where
  starts : ∀ m ∈ ms, ∃ y, m.start.rest = '\n' :: y
  isSuffix : ∀ m ∈ ms, m.stop.rest <:+ source
  pairwise : ms.Pairwise fun m n => m.stop.Reaches n.start

theorem areIn_all (k : Conventions) (source : List Char) :
    AreIn source (all (ofConventions k) source) := by
  have hr : ∀ t ∈ (seq (char '\n') methodPart).findAll source,
      t.run ∈ (seq (char '\n') methodPart).runs t.start ∧ Cursor.Reaches (.start source) t.start :=
    mem_runs_of_mem_findAllFrom
  have hm : ∀ t m, ofMatch? t = some m → m.start = t.start ∧ m.stop = t.stop := by
    intro t m h
    obtain ⟨w, -, rfl⟩ := Option.map_eq_some_iff.mp h
    exact ⟨rfl, rfl⟩
  rw [all_eq]
  refine ⟨fun m hmem => ?_, fun m hmem => ?_, ?_⟩
  · obtain ⟨t, ht, h⟩ := List.mem_filterMap.mp hmem
    obtain ⟨y, hy, -⟩ := exists_of_mem_runs_seq_char (hr t ht).1
    exact ⟨y, by rw [(hm t m h).1, hy]⟩
  · obtain ⟨t, ht, h⟩ := List.mem_filterMap.mp hmem
    rw [(hm t m h).2]
    exact (reaches_of_mem_runs (hr t ht).1).isSuffix.trans (hr t ht).2.isSuffix
  · rw [List.pairwise_filterMap]
    refine (pairwise_findAllFrom _ _ _ _).imp fun h m hm' n hn => ?_
    rw [(hm _ m hm').2, (hm _ n hn).1]
    exact h

/-- A body goes on to the return in front of the next header. -/
theorem body_twin {source : List Char} {m n : Method} (hm : m.stop.rest <:+ source)
    (hmn : m.stop.Reaches n.start) (hn : ∃ y, n.start.rest = '\n' :: y) :
    (m.twin source).body (some (n.twin source)) = withReturns (m.body (some n)) ++ ['\r'] := by
  obtain ⟨y, hy⟩ := hn
  rw [hmn.rest_eq] at hm
  obtain ⟨o, h1, h2⟩ := exists_twin_append hm
  rw [← hmn.rest_eq] at h1
  have hs : withReturns (m.stop.upTo n.start) ++ withReturns n.start.rest =
      (withReturns (m.stop.upTo n.start) ++ ['\r']) ++ '\n' :: withReturns y := by
    rw [hy, withReturns_break, List.append_assoc]
    rfl
  have ht : (withReturns n.start.rest).tail = '\n' :: withReturns y := by rw [hy]; rfl
  have hu := upTo_append o (withReturns (m.stop.upTo n.start) ++ ['\r']) ('\n' :: withReturns y)
  rw [← hs, List.length_append, ← Nat.add_assoc] at hu
  rw [body, twin, twin, h1, h2, ht]
  exact hu

theorem verbOf_withReturns (k : Conventions) (cs : List Char) :
    (ofConventions k).verbOf (withReturns cs) = (ofConventions k).verbOf cs := by
  refine verbOf_congr k fun m hm => ?_
  have hs := isSign_of_mem_verbMarkers m hm
  exact contains_withReturns hs.1 (hs.notMem (by decide)) (hs.notMem (by decide)) cs

theorem verbOf_append_return (k : Conventions) (cs : List Char) :
    (ofConventions k).verbOf (cs ++ ['\r']) = (ofConventions k).verbOf cs := by
  refine verbOf_congr k fun m hm => ?_
  exact contains_append_blanks (isSign_of_mem_verbMarkers m hm) cs
    (List.forall_mem_singleton.mpr (by decide))

theorem endpoints_twin (k : Conventions) (f : Facts) {source : List Char} {ms : List Method}
    (h : AreIn source ms) :
    endpoints (ofConventions k) f (ms.map (twin source)) = endpoints (ofConventions k) f ms := by
  induction ms with
  | nil => rfl
  | cons m ms ih =>
    obtain ⟨hs, hr, hp⟩ := h
    obtain ⟨-, hs⟩ := List.forall_mem_cons.mp hs
    obtain ⟨hm, hr⟩ := List.forall_mem_cons.mp hr
    obtain ⟨hmn, hp⟩ := List.pairwise_cons.mp hp
    have hv : (ofConventions k).verbOf ((m.twin source).body (ms.map (twin source)).head?) =
        (ofConventions k).verbOf (m.body ms.head?) := by
      cases ms with
      | nil => exact verbOf_withReturns k _
      | cons n ms =>
        have hb := body_twin hm (hmn n List.mem_cons_self) (hs n List.mem_cons_self)
        rw [List.map_cons, List.head?_cons, List.head?_cons, hb, verbOf_append_return,
          verbOf_withReturns]
    rw [List.map_cons, endpoints, endpoints, ih ⟨hs, hr, hp⟩, endpoint?, endpoint?, hv]
    rfl

end Method

theorem Facts.actions_withReturns (k : Conventions) (f : Facts) (source : List Char) :
    f.actions (ofConventions k) (withReturns source) = f.actions (ofConventions k) source := by
  rw [Facts.actions, Facts.actions, Method.all_withReturns,
    Method.endpoints_twin k f (Method.areIn_all k source)]

end EndpointCatalog
