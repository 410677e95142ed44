import EndpointCatalog.Proofs.Yaml.Node
import EndpointCatalog.Routine

namespace EndpointCatalog.Routine

open Yaml

def record (r : Routine) : Record := [("name", .text r.name), ("commands", .texts r.steps)]

theorem mem_record {r : Routine} {e : String × Cell} (he : e ∈ r.record) :
    e.1 ∈ ["name", "commands"] := by
  have h : r.record.map (·.1) = ["name", "commands"] := rfl
  exact h ▸ List.mem_map_of_mem he

theorem isRecord_record (r : Routine) : IsRecord r.record where
  ne_nil := List.cons_ne_nil _ _
  isKey e he := by
    have h : ∀ k ∈ ["name", "commands"], IsKey k.toList := by decide
    exact h e.1 (mem_record he)

theorem ofNode?_record (d : Document) (r : Routine) : ofNode? d r.record.node = some r := by
  have hl : (r.record.map fun e => (e.1, e.2.node)).lookup "name" = some (textNode r.name) := rfl
  have hs : (r.record.map fun e => (e.1, e.2.node)).lookup "commands" =
      some (Cell.node (.texts r.steps)) := rfl
  rw [ofNode?, d.entries?_node (fun e he => mem_record he) rfl]
  simp only [Option.bind_eq_bind, Option.bind_some, hl, hs, Document.text?_textNode,
    Document.texts?_node]
  rfl

theorem read?_write (rs : List Routine) : read? (write rs) = some rs :=
  readList?_records (fun _ => rfl) isRecord_record ofNode?_record rs

end EndpointCatalog.Routine
