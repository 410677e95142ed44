import EndpointCatalog.CommandLine.Run
import EndpointCatalog.Proofs.CommandLine.Call
import EndpointCatalog.Proofs.Routine

namespace EndpointCatalog.CommandLine

open Session Text

variable (s : Surroundings)

theorem perform_listRoutines {w : Workspace} {p : Path} {rs : List Routine}
    (h : loadYaml Routine.read? p w = .ok rs) :
    (Task.listRoutines p).perform s w =
      (.ok (), { workspace := w, output := Routine.write rs }) := by
  rw [Task.perform, Task.session, listRoutines, loadRoutines,
    run_bind_of_ok s (run_doing_of_ok s (run_look_of_ok s h) _), run_write]
  rfl

/-- Routines that are written are read back. So what is printed for a file of routines has the same
routine under each name as the file, and it is printed again as it is. -/
theorem listRoutines_again :
    (∀ rs, Routine.read? (Routine.write rs) = some rs) ∧
    ∀ w p text rs, w.read p = .ok (Bytes.encode text) → Routine.read? text = some rs →
      let printed := ((Task.listRoutines p).perform s w).2.output
      (Task.listRoutines p).perform s w =
        (.ok (), { workspace := w, output := Routine.write rs }) ∧
      (∀ name, (Routine.read? printed).map (Routine.find? · name) =
        (Routine.read? text).map (Routine.find? · name)) ∧
      ∀ v q, v.read q = .ok (Bytes.encode printed) →
        (Task.listRoutines q).perform s v = (.ok (), { workspace := v, output := printed }) := by
  refine ⟨Routine.read?_write, ?_⟩
  intro w p text rs hw ht printed
  have hp : (Task.listRoutines p).perform s w =
      (.ok (), { workspace := w, output := Routine.write rs }) :=
    perform_listRoutines s (loadYaml_eq_ok.mpr ⟨text, hw, ht⟩)
  have ho : printed = Routine.write rs := congrArg (·.2.output) hp
  refine ⟨hp, fun name => ?_, fun v q hv => ?_⟩
  · rw [ho, Routine.read?_write, ht]
  · rw [ho] at hv ⊢
    exact perform_listRoutines s (loadYaml_eq_ok.mpr ⟨_, hv, Routine.read?_write rs⟩)

/-- A routine without a name and steps, and steps that are empty or have several lines. -/
theorem listRoutines_again_lines :
    let rs : List Routine := [⟨"", []⟩, ⟨"x", ["", "a\n b", "  c\n\n"]⟩]
    let s : Surroundings := { git := fun _ _ => none, temporary := ⟨"/tmp"⟩ }
    let w : Workspace := { tree := .dir [("f", .file (Bytes.encode (Routine.write rs)))] }
    w.read ⟨"f"⟩ = .ok (Bytes.encode (Routine.write rs)) ∧
      Routine.read? (Routine.write rs) = some rs ∧
      w.read ⟨"f"⟩ = .ok (Bytes.encode ((Task.listRoutines ⟨"f"⟩).perform s w).2.output) ∧
      ((Task.listRoutines ⟨"f"⟩).perform s w).2.output =
        "- name: ''\n  commands: []\n- name: x\n  commands:\n  - ''\n  - |-\n    a\n     b\n" ++
          "  - |2+\n      c\n\n" := by
  intro rs s w
  have hf : w.read ⟨"f"⟩ = .ok (Bytes.encode (Routine.write rs)) := rfl
  obtain ⟨hr, h⟩ := listRoutines_again s
  obtain ⟨hp, -, ha⟩ := h w ⟨"f"⟩ (Routine.write rs) rs hf (hr rs)
  have hg : w.read ⟨"f"⟩ = .ok (Bytes.encode ((Task.listRoutines ⟨"f"⟩).perform s w).2.output) := by
    rw [hp]
    exact hf
  refine ⟨hf, hr rs, hg, (congrArg (·.2.output) (ha w ⟨"f"⟩ hg)).trans ?_⟩
  rw [hp]
  decide +kernel

end EndpointCatalog.CommandLine
