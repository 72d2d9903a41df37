/-!
The powers of two and of ten, which are the grids that binary and decimal numbers lie on.
-/

namespace CandleHistory.Number

/-- Two to the power `k`. -/
def twoPow (k : Nat) : Nat := Nat.pow 2 k

/-- Ten to the power `k`. -/
def tenPow (k : Nat) : Nat := Nat.pow 10 k

theorem twoPow_pos (k : Nat) : 0 < twoPow k := Nat.pow_pos (by decide)

theorem tenPow_pos (k : Nat) : 0 < tenPow k := Nat.pow_pos (by decide)

theorem tenPow_succ (k : Nat) : tenPow (k + 1) = tenPow k * 10 := rfl

end CandleHistory.Number
