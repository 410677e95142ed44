import EndpointCatalog.Catalog.Document
import EndpointCatalog.Proofs.Yaml.Node

namespace EndpointCatalog

open Yaml

namespace Command

def record (c : Command) : Record :=
  [("module", .text c.module), ("controller", .text c.controller), ("command", .text c.command),
    ("method", .text c.verb.text)] ++
  if c.parameters.isEmpty then [] else [("parameters", .texts c.parameters)]

theorem toValue_record (c : Command) : c.record.toValue = c.toValue := by
  rw [record, toValue]
  cases c.parameters <;> rfl

theorem mem_record {c : Command} {e : String × Cell} (he : e ∈ c.record) :
    e.1 ∈ ["module", "controller", "command", "method", "parameters"] := by
  have h : c.record.map (·.1) <+: ["module", "controller", "command", "method", "parameters"] := by
    rw [record]
    cases c.parameters with
    | nil => exact ⟨["parameters"], rfl⟩
    | cons p ps => exact ⟨[], rfl⟩
  exact h.subset (List.mem_map_of_mem he)

theorem isRecord_record (c : Command) : IsRecord c.record where
  ne_nil := by simp [record]
  isKey e he := by
    have h : ∀ k ∈ ["module", "controller", "command", "method", "parameters"],
        IsKey k.toList := by
      decide
    exact h e.1 (mem_record he)

theorem ofNode?_record (d : Document) (c : Command) : ofNode? d c.record.node = some c := by
  obtain ⟨m, n, k, v, ps⟩ := c
  have he := d.entries?_node (r := record ⟨m, n, k, v, ps⟩) (fun e he => mem_record he) (by
    cases ps <;> rfl)
  have hm : ((record ⟨m, n, k, v, ps⟩).map fun e => (e.1, e.2.node)).lookup "module" =
      some (textNode m) := rfl
  have hn : ((record ⟨m, n, k, v, ps⟩).map fun e => (e.1, e.2.node)).lookup "controller" =
      some (textNode n) := rfl
  have hk : ((record ⟨m, n, k, v, ps⟩).map fun e => (e.1, e.2.node)).lookup "command" =
      some (textNode k) := rfl
  have hv : ((record ⟨m, n, k, v, ps⟩).map fun e => (e.1, e.2.node)).lookup "method" =
      some (textNode v.text) := rfl
  rw [ofNode?, he]
  simp only [Option.bind_eq_bind, Option.bind_some, hm, hn, hk, hv, Document.text?_textNode,
    Document.word?_textNode, Verb.ofText?_text]
  cases ps with
  | nil => rfl
  | cons p ps =>
    have hp : ((record ⟨m, n, k, v, p :: ps⟩).map fun e => (e.1, e.2.node)).lookup "parameters" =
        some (Cell.node (.texts (p :: ps))) := rfl
    simp only [hp, Document.texts?_node]
    rfl

/-- Commands that are written are read back, whatever texts they are made of. -/
theorem read?_write (cs : List Command) : read? (write cs) = some cs :=
  readList?_records toValue_record isRecord_record ofNode?_record cs

end Command

theorem Catalog.read?_write_commands (c : Catalog) :
    Command.read? (c.write .commands) = some c.commands :=
  Command.read?_write c.commands

end EndpointCatalog
