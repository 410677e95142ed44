import EndpointCatalog.Controller.Facts
import EndpointCatalog.Proofs.Text.Casing
import EndpointCatalog.Proofs.Text.Search
import Mathlib

namespace EndpointCatalog.Facts

open Text.Search Text.Casing

variable {s v w x y : List Char} {c f : Char}

def lowered (cs : List Char) : List Char := cs.map Char.toLower

theorem lowered_append (x y : List Char) : lowered (x ++ y) = lowered x ++ lowered y :=
  List.map_append

theorem leads_iff {l cs : List Char} : leads l cs = true ↔ lowered l <+: lowered cs := by
  induction l generalizing cs with
  | nil => exact iff_of_true rfl List.nil_prefix
  | cons a l ih =>
    cases cs with
    | nil =>
      refine iff_of_false Bool.false_ne_true ?_
      exact fun h => List.cons_ne_nil _ _ (List.prefix_nil.mp h)
    | cons c cs =>
      rw [leads, Bool.and_eq_true, beq_iff_eq, ih]
      exact List.cons_prefix_cons.symm

theorem before?_append {p : List Char → Bool} (hy : p y = true)
    (hx : ∀ a b, x = a ++ b → b ≠ [] → p (b ++ y) = false) : before? p (x ++ y) = some x := by
  induction x with
  | nil => cases y <;> simp [before?, hy]
  | cons c x ih =>
    have hc : p (c :: (x ++ y)) = false := hx [] (c :: x) rfl (List.cons_ne_nil c x)
    have hi := ih fun a b he => hx (c :: a) b (congrArg (c :: ·) he)
    rw [List.cons_append, before?, hc, if_neg Bool.false_ne_true, hi, Option.map_some]

/-- Where a text leads another that begins with it, it leads what is in front of it already, as
its first letter does not come again in it. -/
theorem prefix_of_prefix_append_self (hf : f ∉ w) (hx : x ≠ [])
    (h : f :: w <+: x ++ f :: w) : f :: w <+: x := by
  obtain ⟨c, x, rfl⟩ := List.exists_cons_of_ne_nil hx
  obtain ⟨rfl, hw⟩ := List.cons_prefix_cons.mp h
  exact List.cons_prefix_cons.mpr ⟨rfl, prefix_of_prefix_append_cons hf hw⟩

theorem stemOf_append {suffix : List Char} (hl : lowered suffix = f :: w) (hf : f ∉ w)
    (hv : lowered v = lowered suffix) (hs : ¬ lowered suffix <:+: lowered s) :
    stemOf (s ++ v) suffix = s := by
  have hb : before? (leads suffix) (s ++ v) = some s := by
    refine before?_append (leads_iff.mpr (hv ▸ List.prefix_rfl)) fun a b he hb => ?_
    rw [← Bool.not_eq_true, leads_iff, lowered_append, hv]
    intro hp
    rw [hl] at hp hs
    have hn : lowered b ≠ [] := mt List.map_eq_nil_iff.mp hb
    refine hs ((prefix_of_prefix_append_self hf hn hp).isInfix.trans ?_)
    rw [he, lowered_append]
    exact (List.suffix_append _ _).isInfix
  rw [stemOf, hb]
  rfl

/-- A text with a capital in place of each letter that follows a `_`, and without the `_`;
`up` tells whether the text itself follows one. -/
def camelAfter (up : Bool) : List Char → List Char
  | [] => []
  | c :: cs =>
    if c = '_' then camelAfter true cs
    else (if up then c.toUpper else c) :: camelAfter false cs

/-- A text that begins with a capital and has one in place of each letter that follows a `_`,
and without the `_`. -/
def camel (cs : List Char) : List Char := camelAfter true cs

theorem toLower_ne_underscore (h : c ≠ '_') : c.toLower ≠ '_' :=
  mt (toLower_eq_sign (by decide)).mp h

theorem toUpper_toLower (h : c.isUpper = true) : c.toLower.toUpper = c := by
  rw [Char.toUpper_toLower_eq_toUpper,
    Char.toUpper_eq_of_not_isLower (Char.not_isLower_of_isUpper h)]

theorem camelAfter_snakeTail (h : '_' ∉ s) : camelAfter false (snakeTail s) = s := by
  induction s with
  | nil => rfl
  | cons c s ih =>
    rw [List.mem_cons, not_or] at h
    have hc : c.toLower ≠ '_' := toLower_ne_underscore (Ne.symm h.1)
    rw [snakeTail]
    split
    · rename_i hu
      rw [camelAfter, if_pos rfl, camelAfter, if_neg hc, if_pos rfl, toUpper_toLower hu, ih h.2]
    · rename_i hu
      rw [camelAfter, if_neg hc, if_neg Bool.false_ne_true, Char.toLower_eq_of_not_isUpper hu,
        ih h.2]

theorem camel_snake (hu : ∀ c ∈ s.head?, c.isUpper = true) (h : '_' ∉ s) : camel (snake s) = s := by
  cases s with
  | nil => rfl
  | cons c s =>
    rw [List.mem_cons, not_or] at h
    rw [snake, camel, camelAfter, if_neg (toLower_ne_underscore (Ne.symm h.1)), if_pos rfl,
      toUpper_toLower (hu c rfl), camelAfter_snakeTail h.2]

theorem isUpper_of_mem_snakeTail (hc : c ∈ snakeTail s) : c.isUpper = false := by
  induction s with
  | nil => exact absurd hc List.not_mem_nil
  | cons d s ih =>
    rw [snakeTail] at hc
    split at hc
    · obtain rfl | hc := List.mem_cons.mp hc
      · rfl
      obtain rfl | hc := List.mem_cons.mp hc
      · exact d.isUpper_toLower_eq_false
      · exact ih hc
    · obtain rfl | hc := List.mem_cons.mp hc
      · exact d.isUpper_toLower_eq_false
      · exact ih hc

theorem isUpper_of_mem_snake (hc : c ∈ snake s) : c.isUpper = false := by
  cases s with
  | nil => exact absurd hc List.not_mem_nil
  | cons d s =>
    obtain rfl | hc := List.mem_cons.mp hc
    · exact d.isUpper_toLower_eq_false
    · exact isUpper_of_mem_snakeTail hc

/-- Whether a text is in front of `suffix` in the name of a file written in camel case. -/
structure IsStem (suffix stem : String) : Prop where
  capital : ∃ c ∈ stem.toList.head?, c.isUpper = true
  plain : '_' ∉ stem.toList
  free : ¬ lowered suffix.toList <:+: lowered stem.toList

/-- Whether two texts differ in the case of ASCII letters only. -/
def IsVariant (s t : String) : Prop := lowered s.toList = lowered t.toList

instance (s t : String) : Decidable (IsVariant s t) := inferInstanceAs (Decidable (_ = _))

theorem controllerOf_append {suffix stem tail : String} (hl : lowered suffix.toList = f :: w)
    (hf : f ∉ w) (hs : IsStem suffix stem) (hv : IsVariant tail suffix) :
    controllerOf (stem ++ tail) suffix = String.ofList (snake stem.toList) := by
  rw [controllerOf, String.toList_append, stemOf_append hl hf hv hs.free]

theorem camel_controllerOf_append {suffix stem tail : String} (hl : lowered suffix.toList = f :: w)
    (hf : f ∉ w) (hs : IsStem suffix stem) (hv : IsVariant tail suffix) :
    camel (controllerOf (stem ++ tail) suffix).toList = stem.toList := by
  obtain ⟨c, hc, hu⟩ := hs.capital
  rw [controllerOf_append hl hf hs hv, String.toList_ofList]
  refine camel_snake (fun d hd => ?_) hs.plain
  rwa [Option.mem_unique hd hc]

/-- Whether a path names a file that has `suffix`, in whatever case, behind a stem. -/
def HasStem (suffix : String) (p : Path) (stem : String) : Prop :=
  IsStem suffix stem ∧ ∃ tail, IsVariant tail suffix ∧ p.fileName? = some (stem ++ tail)

theorem camel_controller {suffix stem : String} (hl : lowered suffix.toList = f :: w) (hf : f ∉ w)
    {p : Path} (hp : HasStem suffix p stem) {d : Dialect}
    (hd : d.conventions.controllerSuffix = suffix) (isFile : Path → Bool) (source : List Char) :
    (ofSource d isFile p source).controller = String.ofList (snake stem.toList) ∧
      camel (ofSource d isFile p source).controller.toList = stem.toList := by
  obtain ⟨hs, tail, hv, hn⟩ := hp
  have hc : (ofSource d isFile p source).controller = controllerOf (stem ++ tail) suffix := by
    rw [← hd, ← Option.getD_some (a := stem ++ tail) (b := ""), ← hn]
    rfl
  rw [hc]
  exact ⟨controllerOf_append hl hf hs hv, camel_controllerOf_append hl hf hs hv⟩

/-- The controller of a file in camel case has no capital, and the stem of the file name can be read
back from it, so files of different stems have different controllers. -/
theorem camel_controllerOf :
    (∀ stem tail, IsStem "Controller.php" stem → IsVariant tail "Controller.php" →
      (∀ c ∈ (controllerOf (stem ++ tail) "Controller.php").toList, c.isUpper = false) ∧
        camel (controllerOf (stem ++ tail) "Controller.php").toList = stem.toList) ∧
    ∀ p stem, HasStem "Controller.php" p stem → ∀ p' stem', HasStem "Controller.php" p' stem' →
      ∀ d d' : Dialect, d.conventions.controllerSuffix = "Controller.php" →
        d'.conventions.controllerSuffix = "Controller.php" → ∀ isFile isFile' source source',
          (ofSource d isFile p source).controller = (ofSource d' isFile' p' source').controller ↔
            stem = stem' := by
  have hl : lowered "Controller.php".toList = 'c' :: "ontroller.php".toList := by decide
  have hf : 'c' ∉ "ontroller.php".toList := by decide
  refine ⟨fun stem tail hs hv => ⟨fun c hm => ?_, camel_controllerOf_append hl hf hs hv⟩, ?_⟩
  · rw [controllerOf_append hl hf hs hv, String.toList_ofList] at hm
    exact isUpper_of_mem_snake hm
  · intro p stem hp p' stem' hp' d d' hd hd' isFile isFile' source source'
    obtain ⟨hc, hr⟩ := camel_controller hl hf hp hd isFile source
    obtain ⟨hc', hr'⟩ := camel_controller hl hf hp' hd' isFile' source'
    constructor
    · intro he
      rw [← String.toList_inj, ← hr, he, hr']
    · rintro rfl
      rw [hc, hc']

/-- Capitals in a row, a digit, a letter outside ASCII and the front of a suffix. -/
theorem camel_controllerOf_dhcp :
    let stem := "DHCPv4É"
    let near := "DhcpController"
    let p : Path := ⟨"/x/Dhcp/Api/DHCPv4ÉCONTROLLER.php"⟩
    let p' : Path := ⟨"/x/Dhcp/Api/DhcpControllerController.PHP"⟩
    HasStem "Controller.php" p stem ∧ HasStem "Controller.php" p' near ∧
      controllerOf (stem ++ "CONTROLLER.php") "Controller.php" = "d_h_c_pv4É" ∧
      camel "d_h_c_pv4É".toList = stem.toList ∧
      (ofSource (.ofConventions {}) (fun _ => false) p []).controller ≠
        (ofSource (.ofConventions {}) (fun _ => false) p' []).controller := by
  intro stem near p p'
  have hs : IsStem "Controller.php" stem := ⟨⟨'D', by decide, rfl⟩, by decide, by decide +kernel⟩
  have hn : IsStem "Controller.php" near := ⟨⟨'D', by decide, rfl⟩, by decide, by decide +kernel⟩
  have hv : IsVariant "CONTROLLER.php" "Controller.php" := by decide
  have hp : HasStem "Controller.php" p stem := ⟨hs, _, hv, by decide +kernel⟩
  have hp' : HasStem "Controller.php" p' near :=
    ⟨hn, "Controller.PHP", by decide, by decide +kernel⟩
  have hk : controllerOf (stem ++ "CONTROLLER.php") "Controller.php" = "d_h_c_pv4É" := by
    decide +kernel
  obtain ⟨hr, hc⟩ := camel_controllerOf
  refine ⟨hp, hp', hk, ?_, ?_⟩
  · rw [← hk]
    exact (hr stem "CONTROLLER.php" hs hv).2
  · rw [ne_eq, hc p stem hp p' near hp' _ _ rfl rfl]
    decide

end EndpointCatalog.Facts
