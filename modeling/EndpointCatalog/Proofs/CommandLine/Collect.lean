import EndpointCatalog.CommandLine.Run
import EndpointCatalog.Proofs.Catalog.Storage
import EndpointCatalog.Proofs.CommandLine.Session

namespace EndpointCatalog.CommandLine

open Session Workspace Catalog

def outputOf (r : Repository) (output? : Option Path) : Path := output?.getD ⟨r.name ++ ".yaml"⟩

def gathered (w : Workspace) (source : Path) (r : Repository) (settings : Path) :
    Except Fault Catalog :=
  (Settings.load w settings).bind fun st => (Survey.ofSettings st).collect w source r

section

variable (s : Surroundings) (w : Workspace) (source : Path) (r : Repository)
  (output? : Option Path) (format : Format) (settings : Path)

theorem perform_collect :
    (Task.collect (some source) r output? format settings).perform s w =
      match Settings.load w settings with
      | .error f =>
        (.error ⟨["Failed to load config " ++ settings.text], f⟩, { workspace := w })
      | .ok st => match (Survey.ofSettings st).collect w source r with
        | .error f =>
          (.error ⟨["Failed to collect controllers under " ++ source.text], f⟩, { workspace := w })
        | .ok c => match (c.save format (outputOf r output?)).run w with
          | (.error f, v) =>
            (.error ⟨["Failed to write " ++ (outputOf r output?).text], f⟩, { workspace := v })
          | (.ok (), v) =>
            (.ok (), {
              workspace := v
              output := summary c (outputOf r output?)
              events := [.catalogWritten] }) := by
  rw [Task.perform, Task.session, CommandLine.collect, run_bind, run_doing, run_look]
  cases Settings.load w settings with
  | error f => rfl
  | ok st =>
    dsimp only
    rw [run_bind, sources, run_pure]
    dsimp only
    rw [run_bind, run_doing, run_look]
    cases (Survey.ofSettings st).collect w source r with
    | error f => rfl
    | ok c =>
      dsimp only
      rw [run_bind, run_doing, run_change]
      rw [outputOf]
      obtain ⟨a, v⟩ := (c.save format (output?.getD ⟨r.name ++ ".yaml"⟩)).run w
      cases a <;> rfl

/-- A run changes nothing before there is a catalog, and then what saving the catalog changes. -/
theorem perform_collect_cases :
    let result := (Task.collect (some source) r output? format settings).perform s w
    (result.1 ≠ .ok () ∧ result.2.workspace = w ∧ ∀ c, gathered w source r settings ≠ .ok c) ∨
    ∃ c, gathered w source r settings = .ok c ∧
      let saved := (c.save format (outputOf r output?)).run w
      (result.1 = .ok () ↔ saved.1 = .ok ()) ∧ result.2.workspace = saved.2 := by
  intro result
  have hp : result = _ := perform_collect s w source r output? format settings
  rw [hp, gathered]
  cases Settings.load w settings with
  | error f => exact .inl ⟨nofun, rfl, nofun⟩
  | ok st =>
    dsimp only [Except.bind]
    cases (Survey.ofSettings st).collect w source r with
    | error f => exact .inl ⟨nofun, rfl, nofun⟩
    | ok c =>
      refine .inr ⟨c, rfl, ?_⟩
      dsimp only
      obtain ⟨a, v⟩ := (c.save format (outputOf r output?)).run w
      cases a with
      | error f => exact ⟨iff_of_false nofun nofun, rfl⟩
      | ok => exact ⟨iff_of_true rfl rfl, rfl⟩

/-- A run with given sources is atomic: if it fails, whatever fails, the output is what it was; if
it succeeds, and it does where there is a catalog and the places of the output and of its draft can
take a file, the output is the catalog and there is no draft. No other place changes. -/
theorem perform_collect_atomic (h : (outputOf r output?).fileName?.isSome) :
    let output := outputOf r output?
    let result := (Task.collect (some source) r output? format settings).perform s w
    let v := result.2.workspace
    (∀ t, result.1 = .error t → v.found output = w.found output) ∧
    (result.1 = .ok () → ∃ c, gathered w source r settings = .ok c ∧
      v.read output = .ok (Text.Bytes.encode (c.write format)) ∧
      v.found (draftOf output) = .error .notFound) ∧
    (result.1 = .ok () ↔ (∃ c, gathered w source r settings = .ok c) ∧
      (∃ d n, w.Admits output d n) ∧ ∃ d m, w.Admits (draftOf output) d m) ∧
    v.cwd = w.cwd ∧
    ∀ place, w.place? output ≠ some place → w.place? (draftOf output) ≠ some place →
      v.tree.contentAt? place = w.tree.contentAt? place := by
  obtain ⟨ns, n, m, dots, hb⟩ := beside_draftOf h
  intro output result v
  obtain ⟨hr, hv, hn⟩ | ⟨c, hc, hr, hv⟩ :=
    perform_collect_cases s w source r output? format settings
  · have hv : v = w := hv
    rw [hv]
    exact ⟨fun _ _ => rfl, fun h => absurd h hr, iff_of_false hr fun ⟨⟨c, hc⟩, _⟩ => hn c hc, rfl,
      fun _ _ _ => rfl⟩
  · have hs := saving_save c format output w
    rw [← hv] at hs
    refine ⟨fun t ht => hs.found_of_ne (fun h => ?_) hb, fun h => ⟨c, hc, ?_⟩, ?_, hs.elsewhere⟩
    · cases ht.symm.trans (hr.mpr h)
    · exact hs.of_ok (hr.mp h) hb
    · exact hr.trans (hs.eq_ok_iff.trans ⟨fun h => ⟨⟨c, hc⟩, h⟩, fun h => h.2⟩)

/-- A catalog takes the place of a hidden file, and not that of a directory. -/
theorem perform_collect_hidden :
    let s : Surroundings := { git := fun _ _ => none, temporary := ⟨"/tmp"⟩ }
    let w : Workspace := { tree := .dir [("src", .dir []), (".catalog", .file [7])] }
    let perform (output : Path) :=
      (Task.collect (some ⟨"src"⟩) .core (some output) .commands ⟨"opncat.toml"⟩).perform s w
    let p : Path := ⟨".catalog"⟩
    let q : Path := ⟨"./src/."⟩
    (outputOf .core (some p)).fileName?.isSome ∧
    (perform p).1 = .ok () ∧
    (perform p).2.workspace.read p = .ok (Text.Bytes.encode "[]\n") ∧
    (perform p).2.workspace.found (draftOf p) = .error .notFound ∧
    (outputOf .core (some q)).fileName?.isSome ∧
    (perform q).1 ≠ .ok () ∧
    (perform q).2.workspace.found q = .ok (["src"], none) ∧
    (perform q).2.workspace.tree.contentAt? [".catalog"] = some (some [7]) := by
  intro s w perform p q
  have hp : (outputOf .core (some p)).fileName?.isSome := by decide +kernel
  have hq : (outputOf .core (some q)).fileName?.isSome := by decide +kernel
  have h := perform_collect_atomic s w ⟨"src"⟩ .core (some p) .commands ⟨"opncat.toml"⟩ hp
  have h' := perform_collect_atomic s w ⟨"src"⟩ .core (some q) .commands ⟨"opncat.toml"⟩ hq
  have hok : (perform p).1 = .ok () := by decide +kernel
  have hne : (perform q).1 ≠ .ok () := by decide +kernel
  obtain ⟨c, hc, hread, hdraft⟩ := h.2.1 hok
  obtain rfl : Catalog.ofFiles .core [] = c := by
    refine Except.ok.inj (Eq.trans ?_ hc)
    decide +kernel
  have hw : (Catalog.ofFiles .core []).write .commands = "[]\n" := by decide +kernel
  rw [hw] at hread
  refine ⟨hp, hok, hread, hdraft, hq, hne, ?_, ?_⟩
  · cases ht : (perform q).1 with
    | ok => exact absurd ht hne
    | error t => exact (h'.1 t ht).trans (by decide +kernel)
  · exact (h'.2.2.2.2 [".catalog"] (by decide +kernel) (by decide +kernel)).trans
      (by decide +kernel)

end

end EndpointCatalog.CommandLine
