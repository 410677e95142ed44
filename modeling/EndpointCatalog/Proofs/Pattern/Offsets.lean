import EndpointCatalog.Proofs.Pattern.Ways
import EndpointCatalog.Proofs.Text.Slices

namespace EndpointCatalog

open Text Text.Bytes

namespace Cursor

variable {source : List Char} {a b : Cursor}

def byte (source : List Char) (a : Cursor) : Nat := size (source.take a.offset)

def finish (source : List Char) : Cursor := ⟨source.length, []⟩

theorem take_append_rest (h : (start source).Reaches a) : source.take a.offset ++ a.rest = source :=
  h.rest_eq.symm

theorem take_append_upTo (h : (start source).Reaches a) (hb : a.Reaches b) :
    source.take a.offset ++ a.upTo b = source.take b.offset := by
  have hs : source.take a.offset ++ a.upTo b ++ b.rest = source.take b.offset ++ b.rest := by
    rw [List.append_assoc, ← hb.rest_eq, take_append_rest h, take_append_rest (h.trans hb)]
  exact List.append_cancel_right hs

theorem slice?_byte (h : (start source).Reaches a) (hb : a.Reaches b) :
    slice? (spell source) (a.byte source) (b.byte source) = some (spell (a.upTo b)) := by
  have hs := slice?_spell (source.take a.offset) (a.upTo b) b.rest
  rwa [take_append_upTo h hb, take_append_rest (h.trans hb)] at hs

theorem reaches_finish (h : (start source).Reaches a) : a.Reaches (finish source) := by
  obtain ⟨w, hw, ho⟩ := h
  have hs : source = w ++ a.rest := hw
  have hl : a.offset = w.length := ho.trans (Nat.zero_add _)
  refine ⟨a.rest, (List.append_nil _).symm, ?_⟩
  rw [hl, ← List.length_append, ← hs]
  rfl

theorem byte_finish (source : List Char) : (finish source).byte source = (spell source).length :=
  congrArg size List.take_length

theorem upTo_finish (h : (start source).Reaches a) : a.upTo (finish source) = a.rest := by
  have hr := (reaches_finish h).rest_eq
  rw [finish, List.append_nil] at hr
  exact hr.symm

theorem byte_le_byte (h : (start source).Reaches a) (hb : a.Reaches b) :
    a.byte source ≤ b.byte source := by
  rw [byte, byte, ← take_append_upTo h hb, size_append]
  exact Nat.le_add_right _ _

theorem isBoundary_byte (source : List Char) (a : Cursor) :
    isBoundary (spell source) (a.byte source) = true :=
  isBoundary_size (List.take_prefix _ _)

end Cursor

/-- Whether matches are found in a text from left to right, none overlapping another. -/
structure IsScan (source : List Char) (found : List Match) : Prop where
  inside : ∀ m ∈ found, (Cursor.start source).Reaches m.start ∧ m.start.Reaches m.stop
  apart : found.Pairwise fun m m' => m.stop.Reaches m'.start

theorem isScan_findAll (p : Pattern) (source : List Char) : IsScan source (p.findAll source) where
  inside m hm := (Pattern.mem_runs_of_mem_findAllFrom m hm).symm.imp_right Pattern.reaches_of_mem_runs
  apart := Pattern.pairwise_findAllFrom p _ _ _

end EndpointCatalog
