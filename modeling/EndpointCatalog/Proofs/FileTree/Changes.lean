import EndpointCatalog.Proofs.FileTree.Content
import EndpointCatalog.Proofs.Overwriting
import Mathlib.Logic.Basic

namespace EndpointCatalog

open Text Overwriting

namespace FileTree

/-- Whether `u` has a file, or nothing, at a place and is like `t` elsewhere. -/
def Changes (t u : FileTree) (place : List String) (file? : Option Bytes) : Prop :=
  ∀ ms, u.contentAt? ms = if ms = place then file?.map some else t.contentAt? ms

variable {t u : FileTree} {es fs : List (String × FileTree)} {n : String} {ns : List String}
  {place : List String} {b : Bytes} {file? : Option Bytes}

theorem contentAt?_dir_cons (es : List (String × FileTree)) (n : String) (ns : List String) :
    (dir es).contentAt? (n :: ns) = (es.lookup n).bind (contentAt? · ns) := by
  rw [contentAt?, get?, Option.map_bind]
  rfl

theorem contentAt?_cons_of_ne (h : t.contentAt? [] ≠ some none) (n : String) (ns : List String) :
    t.contentAt? (n :: ns) = none := by
  cases t with
  | file b => rfl
  | dir es => exact absurd rfl h

theorem contentAt?_ne_dir :
    t.contentAt? place ≠ some none ↔ ∀ es, t.get? place ≠ some (.dir es) := by
  rw [Ne, contentAt?_eq_dir, not_exists]

theorem Changes.entry (h : (dir es).contentAt? [n] ≠ some none)
    (hl : ∀ m, fs.lookup m = if m = n then file?.map file else es.lookup m) :
    (dir es).Changes (dir fs) [n] file? := by
  intro ms
  cases ms with
  | nil => rfl
  | cons m ms =>
    rw [contentAt?_dir_cons, hl]
    by_cases hm : m = n
    · subst hm
      rw [if_pos rfl]
      cases ms with
      | nil => cases file? <;> simp [contentAt?, get?, bytes?]
      | cons k ms =>
        rw [if_neg (by simp), contentAt?_dir_cons]
        have hn : (es.lookup m).bind (contentAt? · (k :: ms)) = none := by
          rw [contentAt?_dir_cons] at h
          cases hs : es.lookup m with
          | none => rfl
          | some s =>
            rw [hs] at h
            exact contentAt?_cons_of_ne h k ms
        rw [hn]
        cases file? <;> rfl
    · rw [if_neg hm, if_neg fun h => hm (List.cons.inj h).1, contentAt?_dir_cons]

theorem Changes.below (ht : es.lookup n = some t) (h : t.Changes u place file?)
    (hl : ∀ m, fs.lookup m = if m = n then some u else es.lookup m) :
    (dir es).Changes (dir fs) (n :: place) file? := by
  intro ms
  cases ms with
  | nil => rfl
  | cons m ms =>
    rw [contentAt?_dir_cons, contentAt?_dir_cons, hl]
    by_cases hm : m = n
    · subst hm
      rw [if_pos rfl, ht, Option.bind_some, h ms]
      simp
    · rw [if_neg hm, if_neg fun h => hm (List.cons.inj h).1]

theorem alter_eq_upsert (n : String) (f : Option FileTree → FileTree)
    (es : List (String × FileTree)) : alter n f es = upsert n f es := by
  induction es with
  | nil => rfl
  | cons e es ih => rw [alter, upsert, ih]

theorem lookup_alter (n : String) (f : Option FileTree → FileTree)
    (es : List (String × FileTree)) (m : String) :
    (alter n f es).lookup m = if m = n then some (f (es.lookup n)) else es.lookup m := by
  rw [alter_eq_upsert, lookup_upsert]

theorem lookup_filter_ne (n : String) (es : List (String × FileTree)) (m : String) :
    (es.filter (·.1 ≠ n)).lookup m = if m = n then none else es.lookup m := by
  induction es with
  | nil => exact (ite_self _).symm
  | cons e es ih =>
    obtain ⟨k, s⟩ := e
    rw [List.filter_cons, lookup_entry]
    by_cases hk : k = n
    · subst hk
      rw [if_neg (by simp), ih]
      split <;> rfl
    · rw [if_pos (by simpa using hk), lookup_entry, ih]
      exact ite_ite_comm _ _ _ _ fun h h' => hk (h.symm.trans h')

theorem lookup_map_entry (n : String) (f : FileTree → FileTree) (es : List (String × FileTree))
    (m : String) :
    (es.map fun e => if e.1 = n then (e.1, f e.2) else e).lookup m =
      if m = n then (es.lookup n).map f else es.lookup m := by
  induction es with
  | nil => exact (ite_self _).symm
  | cons e es ih =>
    obtain ⟨k, s⟩ := e
    rw [List.map_cons, lookup_entry, lookup_entry]
    by_cases hk : k = n
    · subst hk
      rw [if_pos rfl, if_pos rfl, lookup_entry, ih]
      split <;> rfl
    · rw [if_neg hk, if_neg (Ne.symm hk), lookup_entry, ih]
      exact ite_ite_comm _ _ _ _ fun h h' => hk (h.symm.trans h')

/-- What changes a single entry at each step changes one place. -/
theorem changes_of_entries (op : List String → FileTree → FileTree)
    (last : ∀ es, ∃ fs, op [n] (dir es) = dir fs ∧
      ∀ m, fs.lookup m = if m = n then file?.map file else es.lookup m)
    (step : ∀ k ns s es, es.lookup k = some s → ∃ fs, op (k :: (ns ++ [n])) (dir es) = dir fs ∧
      ∀ m, fs.lookup m = if m = k then some (op (ns ++ [n]) s) else es.lookup m)
    (hd : t.contentAt? ns = some none) (hn : t.contentAt? (ns ++ [n]) ≠ some none) :
    t.Changes (op (ns ++ [n]) t) (ns ++ [n]) file? := by
  induction ns generalizing t with
  | nil =>
    obtain ⟨es, he⟩ := contentAt?_eq_dir.mp hd
    obtain rfl := Option.some.inj he
    obtain ⟨fs, hop, hl⟩ := last es
    rw [List.nil_append, hop]
    exact .entry hn hl
  | cons k ns ih =>
    cases t with
    | file c => cases hd
    | dir es =>
      rw [contentAt?_dir_cons] at hd
      rw [List.cons_append, contentAt?_dir_cons] at hn
      obtain ⟨s, hs, hd⟩ := Option.bind_eq_some_iff.mp hd
      rw [hs] at hn
      obtain ⟨fs, hop, hl⟩ := step k ns s es hs
      rw [List.cons_append, hop]
      exact .below hs (ih hd hn) hl

theorem changes_put (hd : t.contentAt? ns = some none) (hn : t.contentAt? (ns ++ [n]) ≠ some none)
    (b : Bytes) : t.Changes (t.put (ns ++ [n]) (.file b)) (ns ++ [n]) (some b) := by
  apply changes_of_entries (fun ns t => t.put ns (.file b)) _ _ hd hn
  · intro es
    exact ⟨_, rfl, lookup_alter n _ es⟩
  · intro k ns s es hs
    refine ⟨_, rfl, fun m => ?_⟩
    rw [lookup_alter, hs]
    rfl

theorem changes_erase (hd : t.contentAt? ns = some none)
    (hn : t.contentAt? (ns ++ [n]) ≠ some none) :
    t.Changes (t.erase (ns ++ [n])) (ns ++ [n]) none := by
  apply changes_of_entries erase _ _ hd hn
  · intro es
    exact ⟨_, rfl, lookup_filter_ne n es⟩
  · intro k ns s es hs
    -- the names below the entry are not empty, which `erase` asks for
    have he : (dir es).erase (k :: (ns ++ [n])) =
        dir (es.map fun e => if e.1 = k then (e.1, e.2.erase (ns ++ [n])) else e) := by
      cases ns <;> rfl
    refine ⟨_, he, fun m => ?_⟩
    rw [lookup_map_entry, hs]
    rfl

theorem Changes.self (h : t.Changes u place file?) : u.contentAt? place = file?.map some := by
  rw [h, if_pos rfl]

theorem Changes.of_ne (h : t.Changes u place file?) {ms : List String} (hm : ms ≠ place) :
    u.contentAt? ms = t.contentAt? ms := by
  rw [h, if_neg hm]

theorem Changes.trans {v : FileTree} {new? : Option Bytes} (h : t.Changes u place file?)
    (h' : u.Changes v place new?) : t.Changes v place new? := by
  intro ms
  rw [h', h]
  split <;> rfl

def SameDirs (t u : FileTree) : Prop :=
  ∀ place, t.contentAt? place = some none ↔ u.contentAt? place = some none

theorem SameDirs.symm (h : t.SameDirs u) : u.SameDirs t := fun place => (h place).symm

theorem SameDirs.trans {v : FileTree} (h : t.SameDirs u) (h' : u.SameDirs v) : t.SameDirs v :=
  fun place => (h place).trans (h' place)

theorem Changes.sameDirs (h : t.Changes u place file?) (hp : t.contentAt? place ≠ some none) :
    t.SameDirs u := by
  intro ms
  by_cases hm : ms = place
  · subst hm
    refine iff_of_false hp ?_
    rw [h.self]
    cases file? <;> nofun
  · rw [h.of_ne hm]

end FileTree

end EndpointCatalog
