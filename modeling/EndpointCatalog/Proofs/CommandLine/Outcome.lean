import EndpointCatalog.CommandLine.Session

namespace EndpointCatalog.CommandLine

section

variable (service : Service) (k : Connection) (args : List String)

def asked (c : Command) : Request :=
  ⟨if c.verb = .post then "POST" else "GET", k.url c args, k⟩

def askedAll (cs : List Command) : List Request := (cs.map (asked k args)).reverse

/-- Whether a command gets all its arguments, and an answer when it is called after others. -/
structure Succeeds (earlier : List Command) (c : Command) : Prop where
  hasArguments : c.parameters.length ≤ args.length
  isAnswered : ∃ text,
    Request.shown (service (askedAll k args earlier) (asked k args c)) = .ok text

def AllSucceed (cs : List Command) : Prop :=
  ∀ earlier c later, cs = earlier ++ c :: later → Succeeds service k args earlier c

end

section

variable {service : Service} {k : Connection} {args : List String} {cs ds : List Command}
  {c : Command}

theorem AllSucceed.of_prefix (h : AllSucceed service k args ds) (hp : cs <+: ds) :
    AllSucceed service k args cs := by
  obtain ⟨es, rfl⟩ := hp
  rintro earlier c later rfl
  exact h earlier c (later ++ es) (List.append_assoc _ _ _)

theorem allSucceed_concat : AllSucceed service k args (cs ++ [c]) ↔
    AllSucceed service k args cs ∧ Succeeds service k args cs c := by
  refine ⟨fun h => ⟨h.of_prefix (List.prefix_append _ _), h cs c [] rfl⟩, ?_⟩
  rintro ⟨h, hc⟩ earlier d later he
  obtain rfl | ⟨ds, e, rfl⟩ := List.eq_nil_or_concat later
  · obtain ⟨rfl, hd⟩ := List.append_inj' he rfl
    cases hd
    exact hc
  · rw [List.concat_eq_append, ← List.cons_append, ← List.append_assoc] at he
    exact h earlier d ds (List.append_inj' he rfl).1

namespace Outcome

variable {tried called : List Command} {result : Except Trouble Unit}

theorem length_le {earlier later sent rest : List Command} {d : Command}
    (hd : ¬ Succeeds service k args earlier d) (hs : AllSucceed service k args sent)
    (h : earlier ++ d :: later = sent ++ rest) : sent.length ≤ earlier.length := by
  refine Nat.le_of_not_lt fun hl => hd ?_
  have hp : earlier ++ [d] <+: sent :=
    List.prefix_of_prefix_length_le ⟨later, by rw [List.append_assoc]; exact h⟩
      (List.prefix_append _ _) (by rwa [List.length_append])
  exact (allSucceed_concat.mp (hs.of_prefix hp)).2

end Outcome

end

end EndpointCatalog.CommandLine
