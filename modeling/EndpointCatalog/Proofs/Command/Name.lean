import EndpointCatalog.Command.Lookup
import EndpointCatalog.Proofs.Text.Search

namespace EndpointCatalog.Command

open Text.Search

/-- Whether the module and the controller could be those of a path. -/
def IsPlaced (c : Command) : Prop :=
  (c.module = "/" ∨ '/' ∉ c.module.toList) ∧ '/' ∉ c.controller.toList

/-- Whether `b`, without module and controller, spells out the name that `a` has at the root. -/
def Spells (a b : Command) : Prop :=
  a.module = "/" ∧ b.module = "" ∧ b.controller = "" ∧
    b.command = a.controller ++ "/" ++ a.command

theorem toList_append_slash (s t : String) :
    (s ++ "/" ++ t).toList = s.toList ++ '/' :: t.toList := by
  have h : "/".toList = ['/'] := rfl
  rw [String.toList_append, String.toList_append, h, List.append_assoc, List.singleton_append]

theorem toList_name (c : Command) :
    c.name.toList =
      c.module.toList ++ '/' :: (c.controller.toList ++ '/' :: c.command.toList) := by
  rw [name, group, toList_append_slash, toList_append_slash, List.append_assoc, List.cons_append]

theorem module_ne_of_spells {a b : Command} (h : a.Spells b) :
    a.module = "/" ∧ b.module ≠ "/" := by
  refine ⟨h.1, ?_⟩
  rw [h.2.1]
  decide

theorem name_eq_iff_of_notMem {a b : Command} (ha : '/' ∉ a.module.toList)
    (hb : '/' ∉ b.module.toList) (hc : '/' ∉ a.controller.toList)
    (hd : '/' ∉ b.controller.toList) :
    a.name = b.name ↔
      a.module = b.module ∧ a.controller = b.controller ∧ a.command = b.command := by
  rw [← String.toList_inj, toList_name, toList_name, append_cons_inj ha hb,
    append_cons_inj hc hd, String.toList_inj, String.toList_inj, String.toList_inj]

theorem name_eq_iff_of_root {a b : Command} (ha : a.module = "/") (hb : b.module = "/")
    (hc : '/' ∉ a.controller.toList) (hd : '/' ∉ b.controller.toList) :
    a.name = b.name ↔ a.controller = b.controller ∧ a.command = b.command := by
  rw [← String.toList_inj, toList_name, toList_name, ha, hb, List.append_cancel_left_eq,
    List.cons_inj_right, append_cons_inj hc hd, String.toList_inj, String.toList_inj]

theorem name_eq_iff_spells {a b : Command} (ha : a.module = "/") (hb : '/' ∉ b.module.toList)
    (hd : '/' ∉ b.controller.toList) : a.name = b.name ↔ a.Spells b := by
  have hr : "/".toList ++ '/' :: (a.controller.toList ++ '/' :: a.command.toList) =
      [] ++ '/' :: ([] ++ '/' :: (a.controller.toList ++ '/' :: a.command.toList)) := rfl
  have he : ∀ s : String, [] = s.toList ↔ s = "" := fun s => by
    rw [← String.toList_inj]
    exact eq_comm
  rw [← String.toList_inj, toList_name, toList_name, ha, hr,
    append_cons_inj List.not_mem_nil hb, append_cons_inj List.not_mem_nil hd, he, he,
    ← toList_append_slash, String.toList_inj, eq_comm (b := b.command), Spells]
  exact ⟨fun h => ⟨ha, h⟩, fun h => h.2⟩

/-- Equal names have equal parts, unless one spells out the other. -/
theorem name_eq_iff {a b : Command} (ha : a.IsPlaced) (hb : b.IsPlaced) :
    a.name = b.name ↔
      (a.module = b.module ∧ a.controller = b.controller ∧ a.command = b.command) ∨
        a.Spells b ∨ b.Spells a := by
  obtain ⟨hma, hca⟩ := ha
  obtain ⟨hmb, hcb⟩ := hb
  have hs : ∀ {s : String}, '/' ∉ s.toList → s ≠ "/" := by
    rintro s h rfl
    exact h (by decide)
  -- a module is the root or has no slash, on either side
  obtain hma | hma := hma <;> obtain hmb | hmb := hmb
  · rw [name_eq_iff_of_root hma hmb hca hcb]
    constructor
    · exact fun h => .inl ⟨hma.trans hmb.symm, h⟩
    · rintro (h | h | h)
      · exact h.2
      · exact absurd hmb (module_ne_of_spells h).2
      · exact absurd hma (module_ne_of_spells h).2
  · rw [name_eq_iff_spells hma hmb hcb]
    constructor
    · exact fun h => .inr (.inl h)
    · rintro (h | h | h)
      · exact absurd (h.1.symm.trans hma) (hs hmb)
      · exact h
      · exact absurd h.1 (hs hmb)
  · rw [eq_comm, name_eq_iff_spells hmb hma hca]
    constructor
    · exact fun h => .inr (.inr h)
    · rintro (h | h | h)
      · exact absurd (h.1.trans hmb) (hs hma)
      · exact absurd h.1 (hs hma)
      · exact h
  · rw [name_eq_iff_of_notMem hma hmb hca hcb]
    constructor
    · exact .inl
    · rintro (h | h | h)
      · exact h
      · exact absurd h.1 (hs hma)
      · exact absurd h.1 (hs hmb)

/-- Whether neither the controller nor the command has a slash. -/
def IsLegible (c : Command) : Prop := '/' ∉ c.controller.toList ∧ '/' ∉ c.command.toList

theorem append_slash_inj {s t u v : String} (ht : '/' ∉ t.toList) (hv : '/' ∉ v.toList) :
    s ++ "/" ++ t = u ++ "/" ++ v ↔ s = u ∧ t = v := by
  rw [← String.toList_inj, toList_append_slash, toList_append_slash, append_cons_inj_last ht hv,
    String.toList_inj, String.toList_inj]

theorem group_eq_iff {a b : Command} (ha : '/' ∉ a.controller.toList)
    (hb : '/' ∉ b.controller.toList) :
    a.group = b.group ↔ a.module = b.module ∧ a.controller = b.controller :=
  append_slash_inj ha hb

theorem name_eq_iff_of_isLegible {a b : Command} (ha : a.IsLegible) (hb : b.IsLegible) :
    a.name = b.name ↔
      a.module = b.module ∧ a.controller = b.controller ∧ a.command = b.command := by
  rw [name, name, append_slash_inj ha.2 hb.2, group_eq_iff ha.1 hb.1, and_assoc]

end EndpointCatalog.Command
