import EndpointCatalog.CommandLine.Session

namespace EndpointCatalog.CommandLine.Session

variable {α β : Type} (s : Surroundings) (r : Report)

theorem run_pure (a : α) : ((pure a : Session α) s).run r = (.ok a, r) := rfl

theorem run_bind (x : Session α) (g : α → Session β) :
    ((x >>= g) s).run r = match (x s).run r with
      | (.ok a, r') => (g a s).run r'
      | (.error t, r') => (.error t, r') := by
  have h : ((x >>= g) s).run r =
      (ExceptT.bindCont (fun a => g a s) ((x s).run r).1).run ((x s).run r).2 := rfl
  rw [h]
  obtain ⟨a, r'⟩ := (x s).run r
  cases a <;> rfl

theorem run_bind_of_ok {x : Session α} {a : α} {r r' : Report} (h : (x s).run r = (.ok a, r'))
    (g : α → Session β) : ((x >>= g) s).run r = (g a s).run r' := by
  rw [run_bind, h]

theorem run_bind_of_error {x : Session α} {t : Trouble} {r r' : Report}
    (h : (x s).run r = (.error t, r')) (g : α → Session β) :
    ((x >>= g) s).run r = (.error t, r') := by
  rw [run_bind, h]

theorem run_write (text : String) :
    (write text s).run r = (.ok (), { r with output := r.output ++ text }) := rfl

theorem run_lift (a : Except Fault α) :
    (lift a s).run r = match a with
      | .ok a => (.ok a, r)
      | .error f => (.error { cause := f }, r) := by
  cases a <;> rfl

theorem run_look (f : Workspace → Except Fault α) :
    (look f s).run r = match f r.workspace with
      | .ok a => (.ok a, r)
      | .error f => (.error { cause := f }, r) :=
  run_lift s r (f r.workspace)

theorem run_change (c : Change α) :
    (change c s).run r = match c.run r.workspace with
      | (.ok a, w) => (.ok a, { r with workspace := w })
      | (.error f, w) => (.error { cause := f }, { r with workspace := w }) := by
  have h : (change c s).run r = (lift (c.run r.workspace).1 s).run
      { r with workspace := (c.run r.workspace).2 } := rfl
  rw [h, run_lift]
  obtain ⟨a, w⟩ := c.run r.workspace
  cases a <;> rfl

theorem run_doing (description : String) (x : Session α) :
    (doing description x s).run r = match (x s).run r with
      | (.ok a, r') => (.ok a, r')
      | (.error t, r') => (.error { t with doing := description :: t.doing }, r') := by
  unfold doing ExceptT.run
  simp only [tryCatch, tryCatchThe, MonadExceptOf.tryCatch, ExceptT.tryCatch, ExceptT.mk, bind,
    StateT.bind]
  obtain ⟨a, r'⟩ := x s r
  cases a <;> rfl

theorem run_doing_of_ok {x : Session α} {a : α} {r r' : Report} (h : (x s).run r = (.ok a, r'))
    (description : String) : (doing description x s).run r = (.ok a, r') := by
  rw [run_doing, h]

theorem run_doing_of_error {x : Session α} {t : Trouble} {r r' : Report}
    (h : (x s).run r = (.error t, r')) (description : String) :
    (doing description x s).run r =
      (.error { t with doing := description :: t.doing }, r') := by
  rw [run_doing, h]

theorem run_look_of_ok {f : Workspace → Except Fault α} {a : α} {r : Report}
    (h : f r.workspace = .ok a) : (look f s).run r = (.ok a, r) := by
  rw [run_look, h]

/-- Whether a session never ends for a cause of some kind. -/
def Avoids (bad : Fault → Prop) (x : Session α) : Prop :=
  ∀ s r t, ((x s).run r).1 = .error t → ¬ bad t.cause

namespace Avoids

variable {bad : Fault → Prop} {x : Session α}

theorem of_ok (h : ∀ s r, ∃ a, ((x s).run r).1 = .ok a) : Avoids bad x := by
  intro s r t ht
  obtain ⟨a, ha⟩ := h s r
  cases ha.symm.trans ht

theorem bind (hx : Avoids bad x) {g : α → Session β}
    (hg : ∀ s r a, ((x s).run r).1 = .ok a → Avoids bad (g a)) : Avoids bad (x >>= g) := by
  intro s r t ht
  cases hr : (x s).run r with
  | mk a r' =>
    cases a with
    | ok a =>
      rw [run_bind_of_ok s hr] at ht
      exact hg s r a (congrArg Prod.fst hr) s r' t ht
    | error t' =>
      rw [run_bind_of_error s hr] at ht
      cases ht
      exact hx s r t (congrArg Prod.fst hr)

theorem doing (hx : Avoids bad x) (description : String) : Avoids bad (doing description x) := by
  intro s r t ht
  cases hr : (x s).run r with
  | mk a r' =>
    cases a with
    | ok a =>
      rw [run_doing_of_ok s hr] at ht
      cases ht
    | error t' =>
      rw [run_doing_of_error s hr] at ht
      cases ht
      exact hx s r t' (congrArg Prod.fst hr)

theorem lift {a : Except Fault α} (h : ∀ f, a = .error f → ¬ bad f) : Avoids bad (lift a) := by
  intro s r t ht
  cases a with
  | ok a => cases ht
  | error f =>
    cases ht
    exact h f rfl

theorem look {f : Workspace → Except Fault α} (h : ∀ w e, f w = .error e → ¬ bad e) :
    Avoids bad (look f) :=
  fun s r => lift (h r.workspace) s r

end Avoids

end EndpointCatalog.CommandLine.Session
