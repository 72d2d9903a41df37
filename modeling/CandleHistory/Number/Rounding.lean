/-!
Rounding of a quotient of natural numbers to a whole number, a half going to the even neighbour.
-/

namespace CandleHistory.Number

/-- The whole number nearest to `n / d`; a half goes to the even neighbour. -/
def roundHalfEven (n d : Nat) : Nat :=
  let low := n / d
  let twice := 2 * (n % d)
  if twice < d then low
  else if twice = d ∧ low % 2 = 0 then low
  else low + 1

/-- A rounded quotient is the floor of the quotient or the number after it. -/
theorem roundHalfEven_eq_or (n d : Nat) :
    roundHalfEven n d = n / d ∨ roundHalfEven n d = n / d + 1 := by
  unfold roundHalfEven
  grind

/-- A rounded quotient is off by half a unit at most: it is not too large. -/
theorem two_mul_roundHalfEven_le (n d : Nat) : 2 * (roundHalfEven n d * d) ≤ 2 * n + d := by
  have hn := Nat.div_add_mod n d
  unfold roundHalfEven
  simp only
  split
  · rw [Nat.mul_comm (n / d) d]; omega
  · split
    · rw [Nat.mul_comm (n / d) d]; omega
    · rw [Nat.add_mul, Nat.mul_comm (n / d) d]; omega

/-- A rounded quotient is off by half a unit at most: it is not too small. -/
theorem le_two_mul_roundHalfEven (n d : Nat) (hd : 0 < d) :
    2 * n ≤ 2 * (roundHalfEven n d * d) + d := by
  have hn := Nat.div_add_mod n d
  have hr := Nat.mod_lt n hd
  unfold roundHalfEven
  simp only
  split
  · rw [Nat.mul_comm (n / d) d]; omega
  · split
    · rw [Nat.mul_comm (n / d) d]; omega
    · rw [Nat.add_mul, Nat.mul_comm (n / d) d]; omega

/-- Of two equally near whole numbers the even one is taken. -/
theorem roundHalfEven_tie (n d : Nat) (h : 2 * (n % d) = d) : roundHalfEven n d % 2 = 0 := by
  unfold roundHalfEven
  simp only [h]
  split
  · omega
  · split
    · next he => exact he.2
    · next he => simp at he; omega

end CandleHistory.Number
