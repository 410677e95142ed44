import EndpointCatalog.CommandLine.Call
import EndpointCatalog.Proofs.Command.Address
import EndpointCatalog.Proofs.CommandLine.Session
import EndpointCatalog.Proofs.Text.Canonical

namespace EndpointCatalog.CommandLine

open Session Command Connection

theorem loadYaml_eq_ok {α : Type} {read? : String → Option α} {p : Path} {w : Workspace} {a : α} :
    loadYaml read? p w = .ok a ↔
      ∃ text, w.read p = .ok (Text.Bytes.encode text) ∧ read? text = some a := by
  simp only [← Workspace.readText_eq_ok, loadYaml]
  cases w.readText p with
  | error e =>
    refine iff_of_false nofun ?_
    rintro ⟨text, ht, -⟩
    cases ht
  | ok text =>
    dsimp only
    cases h : read? text with
    | none =>
      refine iff_of_false nofun ?_
      rintro ⟨_, ht, ha⟩
      cases ht
      cases h.symm.trans ha
    | some b =>
      constructor
      · rintro ⟨⟩
        exact ⟨text, rfl, h⟩
      · rintro ⟨_, ht, ha⟩
        cases ht
        cases h.symm.trans ha
        rfl

variable (s : Surroundings) (r : Report) (k : Connection)

theorem run_send (q : Request) :
    (send q s).run r =
      (lift (Request.shown (s.service r.requests q)) s).run
        { r with requests := q :: r.requests } := rfl

theorem run_loadCommands {commandsFile : Path} {cs : List Command}
    (h : loadYaml Command.read? commandsFile r.workspace = .ok cs) :
    (loadCommands commandsFile s).run r =
      (.ok cs, { r with events := r.events ++ [.commandsLoaded] }) :=
  run_bind_of_ok s (run_doing_of_ok s (run_look_of_ok s h) _) _

theorem run_connect {a : Access} {credentials : Credentials}
    (h : Credentials.resolve r.workspace a.key? a.secret? a.secretFile? = .ok credentials) :
    (connect a s).run r = (.ok ⟨a.url, credentials, a.insecure⟩, r) :=
  run_bind_of_ok s (run_doing_of_ok s (run_look_of_ok s h) _) _

theorem run_call {cs : List Command} {c : Command} {target : String} {args : List String}
    {choice? : Option String} {q : Request} (hc : resolve cs target args = .ok c)
    (hq : k.request c args choice? = .ok q) :
    (call k cs target args choice? s).run r =
      (doing (target ++ " failed") (send q) s).run r := by
  have hl : (lift (resolve cs target args) s).run r = (.ok c, r) := by
    rw [run_lift, hc]
  rw [call, run_bind_of_ok s hl, hq]
  rfl

/-- A call sends at most one request. -/
theorem requests_call (cs : List Command) (target : String) (args : List String)
    (choice? : Option String) :
    ((call k cs target args choice? s).run r).2 =
      match (resolve cs target args).bind (k.request · args choice?) with
      | .ok q => { r with requests := q :: r.requests }
      | .error _ => r := by
  rw [call, run_bind, run_lift]
  cases resolve cs target args with
  | error f => rfl
  | ok c =>
    dsimp only [Except.bind]
    rw [run_doing, run_bind, run_lift]
    cases k.request c args choice? with
    | error f => rfl
    | ok q =>
      dsimp only
      rw [run_send, run_lift]
      cases Request.shown (s.service r.requests q) <;> rfl

/-- A target that no command has for its name is unknown. Otherwise the first command of that name
is called, unless arguments are missing, and its address is the base without the slashes at its
end, the target and the arguments. Commands and arguments without slashes can be told from their
addresses. -/
theorem call_first (cs : List Command) (target : String) (args : List String)
    (choice? : Option String) :
    (resolve cs target args = .error (.unknownCommand target) ↔ ∀ c ∈ cs, c.name ≠ target) ∧
    (∀ before c after, cs = before ++ c :: after → (∀ b ∈ before, b.name ≠ target) →
      c.name = target →
      (resolve cs target args = .error (.missingArguments target c.parameters.length
        (", ".intercalate c.parameters) args.length) ↔ args.length < c.parameters.length) ∧
      (resolve cs target args = .ok c ↔ c.parameters.length ≤ args.length) ∧
      (∃ base n, k.base.toList = base ++ List.replicate n '/' ∧ base.getLast? ≠ some '/' ∧
        (k.url c args).toList = base ++ "/api/".toList ++ target.toList ++
          args.flatMap fun a => '/' :: a.toList) ∧
      (c.parameters.length ≤ args.length → ∀ method, c.verb.methodName choice? = .ok method →
        ((call k cs target args choice? s).run r).2.requests =
          ⟨method, k.url c args, k⟩ :: r.requests)) ∧
    ∀ (k' : Connection) (c c' : Command) (args' : List String), k.base = k'.base →
      c.IsPlain args → c'.IsPlain args' →
      (k.url c args = k'.url c' args' ↔ c.module = c'.module ∧ c.controller = c'.controller ∧
        c.command = c'.command ∧ args = args') := by
  refine ⟨resolve_eq_unknownCommand, ?_, fun k' c c' args' hk h h' => url_eq_iff hk h h'⟩
  rintro before c after rfl hb hc
  have hr : resolve (before ++ c :: after) target args = _ := resolve_of_first hb hc
  obtain ⟨n, hn⟩ := toList_eq_trimSlashes k.base
  refine ⟨?_, ?_, ⟨_, n, hn, getLast?_trimSlashes k.base, ?_⟩, fun hp method hm => ?_⟩
  · rw [hr]
    split
    · rename_i hp
      exact iff_of_true rfl hp
    · rename_i hp
      exact iff_of_false nofun hp
  · rw [hr]
    split
    · rename_i hp
      exact iff_of_false nofun (Nat.not_le_of_lt hp)
    · rename_i hp
      exact iff_of_true rfl (Nat.le_of_not_lt hp)
  · rw [toList_url, hc]
  · rw [requests_call, hr, if_neg (Nat.not_lt_of_le hp)]
    dsimp only [Except.bind]
    rw [request, hm]
    rfl

/-- Of two commands that share a name the second is not called, not even without an argument. -/
theorem call_first_shared :
    let s : Surroundings := { git := fun _ _ => none, temporary := ⟨"/tmp"⟩ }
    let r : Report := { workspace := { tree := .dir [] } }
    let k : Connection := { base := "https://host//" }
    let c : Command := ⟨"a/b", "c", "get", .any, ["id"]⟩
    let d : Command := ⟨"a", "b/c", "get", .get, []⟩
    (∀ e ∈ [c, d], e.name ≠ "a/b/c") ∧
    resolve [c, d] "a/b/c" [] = .error (.unknownCommand "a/b/c") ∧
    c.name = "a/b/c/get" ∧ d.name = "a/b/c/get" ∧
    resolve [c, d] "a/b/c/get" [] = .error (.missingArguments "a/b/c/get" 1 "id" 0) ∧
    resolve [c, d] "a/b/c/get" ["", "x/y"] = .ok c ∧
    ((call k [c, d] "a/b/c/get" ["", "x/y"] (some "put") s).run r).2.requests =
      [⟨"PUT", "https://host/api/a/b/c/get//x/y", k⟩] ∧
    Command.IsPlain ⟨"a", "b", "get", .get, []⟩ ["x", ""] ∧
    Command.IsPlain ⟨"a", "b", "get", .get, []⟩ ["x"] ∧
    k.url ⟨"a", "b", "get", .get, []⟩ ["x", ""] ≠ k.url ⟨"a", "b", "get", .get, []⟩ ["x"] := by
  intro s r k c d
  have h := call_first s r k [c, d]
  have hn : ∀ e ∈ [c, d], e.name ≠ "a/b/c" := by decide +kernel
  have hc : c.name = "a/b/c/get" := by decide +kernel
  have hf := fun args => (h "a/b/c/get" args (some "put")).2.1 [] c [d] rfl (by simp) hc
  have hp : Command.IsPlain ⟨"a", "b", "get", .get, []⟩ ["x", ""] := by
    unfold IsPlain
    decide +kernel
  have hp' : Command.IsPlain ⟨"a", "b", "get", .get, []⟩ ["x"] := by
    unfold IsPlain
    decide +kernel
  refine ⟨hn, (h "a/b/c" [] none).1.mpr hn, hc, by decide +kernel, (hf []).1.mpr (by decide),
    (hf ["", "x/y"]).2.1.mpr (by decide), ?_, hp, hp', fun he => ?_⟩
  · have hu : k.url c ["", "x/y"] = "https://host/api/a/b/c/get//x/y" := by decide +kernel
    rw [← hu]
    exact (hf ["", "x/y"]).2.2.2 (by decide) "PUT" (by rfl)
  · have hi := ((h "a/b/get" ["x", ""] none).2.2 k _ _ ["x"] rfl hp hp').mp he
    exact absurd hi.2.2.2 (by decide)

end EndpointCatalog.CommandLine
