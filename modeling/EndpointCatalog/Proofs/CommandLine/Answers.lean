import EndpointCatalog.CommandLine.Run
import EndpointCatalog.Proofs.Command.Document
import EndpointCatalog.Proofs.CommandLine.Call
import EndpointCatalog.Proofs.Json.Pretty

namespace EndpointCatalog.CommandLine

open Session Json

theorem perform_call_eq (s : Surroundings) {w : Workspace} {a : Access} {commandsFile : Path}
    {target body : String} {args : List String} {method? : Option String} {cs : List Command}
    {c : Command} {credentials : Credentials} {q : Request} {v : Value}
    (hcs : loadYaml Command.read? commandsFile w = .ok cs)
    (hk : Credentials.resolve w a.key? a.secret? a.secretFile? = .ok credentials)
    (hc : Command.resolve cs target args = .ok c)
    (hq : Connection.request ⟨a.url, credentials, a.insecure⟩ c args method? = .ok q)
    (hb : s.service [] q = some body) (hv : parse? body = some v) :
    (Task.call a commandsFile target args method?).perform s w =
      (.ok (), { workspace := w, output := v.pretty ++ "\n", events := [.commandsLoaded],
                 requests := [q] }) := by
  have hs : Request.shown (s.service [] q) = .ok v.pretty := by rw [hb, Request.shown, hv]
  have hl : (loadCommands commandsFile s).run { workspace := w } =
      (.ok cs, { workspace := w, events := [.commandsLoaded] }) := run_loadCommands s _ hcs
  have hn : (connect a s).run { workspace := w, events := [.commandsLoaded] } =
      (.ok ⟨a.url, credentials, a.insecure⟩, { workspace := w, events := [.commandsLoaded] }) :=
    run_connect s _ hk
  have ht : (call ⟨a.url, credentials, a.insecure⟩ cs target args method? s).run
      { workspace := w, events := [.commandsLoaded] } =
      (.ok v.pretty, { workspace := w, events := [.commandsLoaded], requests := [q] }) := by
    rw [run_call s _ _ hc hq, run_doing, run_send, hs, run_lift]
  rw [Task.perform, Task.session, callTarget, run_bind_of_ok s hl, run_bind_of_ok s hn,
    run_bind_of_ok s ht, run_write, String.empty_append]

/-- A text without floating numbers is laid out so that it is read back as the value it has, and is
laid out again as it stands. Two such texts are laid out alike only if they have one value. So what a
call prints of an answer has the value of the answer. -/
theorem parse?_printed {body : String} {v : Value} (h : parse? body = some v)
    (hw : v.isWhole = true) :
    parse? v.pretty = some v ∧
    (parse? v.pretty).map Value.pretty = some v.pretty ∧
    (∀ body' v', parse? body' = some v' → v'.isWhole = true → (v'.pretty = v.pretty ↔ v' = v)) ∧
    ∀ (s : Surroundings) (w : Workspace) (a : Access) (commandsFile : Path) (target : String)
      (args : List String) (method? : Option String) (cs : List Command) (c : Command)
      (credentials : Credentials) (q : Request),
      loadYaml Command.read? commandsFile w = .ok cs →
      Credentials.resolve w a.key? a.secret? a.secretFile? = .ok credentials →
      Command.resolve cs target args = .ok c →
      Connection.request ⟨a.url, credentials, a.insecure⟩ c args method? = .ok q →
      s.service [] q = some body →
      let result := (Task.call a commandsFile target args method?).perform s w
      result.1 = .ok () ∧ result.2.output = v.pretty ++ "\n" ∧
        parse? result.2.output = some v := by
  have hr := isRead_of_parse? h
  have hp := parse?_pretty hr hw
  refine ⟨hp, by rw [hp, Option.map_some], fun body' v' h' hw' => ?_, ?_⟩
  · refine ⟨fun he => ?_, congrArg Value.pretty⟩
    have hp' := parse?_pretty (isRead_of_parse? h') hw'
    rw [he, hp] at hp'
    exact (Option.some.inj hp').symm
  · intro s w a commandsFile target args method? cs c credentials q hcs hk hc hq hb result
    have he : result = _ := perform_call_eq s hcs hk hc hq hb h
    rw [he]
    exact ⟨rfl, rfl, parse?_pretty_newLine hr hw⟩

/-- Of entries with one name the last is printed, the entries stand by increasing names, and escaped
characters as they are. -/
theorem parse?_printed_nested :
    let body := "\r\n\x7b\"b\" : 1, \"a\\n\\u00e9\":[-9223372036854775808,\x7b\x7d,[],\"\\ud83d\\ude00" ++
      "\\u0001/\\/\"],\"b\":\x7b\"x\":18446744073709551615,\"\":null\x7d\x7d\t"
    let printed :=
      "\x7b\n    \"a\\né\": [\n        -9223372036854775808,\n        \x7b\x7d,\n        [],\n" ++
        "        \"😀\\u0001//\"\n    ],\n    \"b\": \x7b\n        \"\": null,\n" ++
        "        \"x\": 18446744073709551615\n    \x7d\n\x7d\n"
    let c : Command := ⟨"a", "b", "get", .any, ["id"]⟩
    let s : Surroundings :=
      { git := fun _ _ => none, service := fun _ _ => some body, temporary := ⟨"/tmp"⟩ }
    let w : Workspace :=
      { tree := .dir [("cs", .file (Text.Bytes.encode (Command.write [c])))] }
    let a : Access := ⟨"https://host", some "k", some "s", none, false⟩
    let result := (Task.call a ⟨"cs"⟩ "a/b/get" ["7"] none).perform s w
    result.1 = .ok () ∧ result.2.output = printed ∧
      ∃ v, parse? body = some v ∧ v.isWhole = true ∧ parse? v.pretty = some v ∧
        parse? printed = some v := by
  intro body printed c s w a result
  have hp : (parse? body).map (fun v => (v.isWhole, v.pretty ++ "\n")) = some (true, printed) := by
    decide +kernel
  obtain ⟨v, hv, he⟩ := Option.map_eq_some_iff.mp hp
  obtain ⟨hw, ho⟩ := Prod.mk.inj he
  have hcs : loadYaml Command.read? ⟨"cs"⟩ w = .ok [c] :=
    loadYaml_eq_ok.mpr ⟨_, rfl, Command.read?_write [c]⟩
  have hc : Command.resolve [c] "a/b/get" ["7"] = .ok c := rfl
  obtain ⟨hp, -, -, h⟩ := parse?_printed hv hw
  obtain ⟨hr, hs, hb⟩ := h s w a ⟨"cs"⟩ "a/b/get" ["7"] none [c] c ⟨"k", "s"⟩ _ hcs rfl hc rfl rfl
  rw [hs, ho] at hb
  exact ⟨hr, hs.trans ho, v, hv, hw, hp, hb⟩

end EndpointCatalog.CommandLine
