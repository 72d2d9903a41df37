import CandleHistory.Number.Decimal
import CandleHistory.Proofs.Numerals
import Mathlib.Tactic.Positivity
import Mathlib.Tactic.FieldSimp
import Mathlib.Tactic.Linarith
import Mathlib.Algebra.Order.Field.Power
import Mathlib.Algebra.Order.Field.Rat

/-!
The values of numbers that are written as a coefficient and a decimal exponent. They are quotients
of natural numbers, a zero at the end of the coefficient may go into the exponent, and the number of
digits says between which powers of ten a value lies.
-/

namespace CandleHistory.Number

/-- The value of a coefficient with a decimal exponent. -/
def scientific (coefficient : Nat) (exponent : Int) : ℚ := coefficient * 10 ^ exponent

variable {c k : Nat} {e : Int}

theorem scientific_nonneg : 0 ≤ scientific c e := by
  unfold scientific
  positivity

theorem scientific_zero_left (e : Int) : scientific 0 e = 0 := by
  rw [scientific, Nat.cast_zero, zero_mul]

theorem scientific_pos_iff : 0 < scientific c e ↔ 0 < c := by
  unfold scientific
  rw [mul_pos_iff_of_pos_right (by positivity), Nat.cast_pos]

theorem cast_tenPow (k : Nat) : (tenPow k : ℚ) = 10 ^ (k : Int) := by
  rw [zpow_natCast]
  exact Nat.cast_pow 10 k

theorem ten_zpow_eq_div (e : Int) : (10 : ℚ) ^ e = tenPow e.toNat / tenPow (-e).toNat := by
  rw [cast_tenPow, cast_tenPow, ← zpow_sub₀ (by norm_num)]
  congr 1
  omega

theorem scientific_eq_div (c : Nat) (e : Int) :
    scientific c e = (c * tenPow e.toNat : Nat) / tenPow (-e).toNat := by
  rw [scientific, ten_zpow_eq_div, Nat.cast_mul, mul_div_assoc]

/-- Zeros at the end of the coefficient count in the exponent. -/
theorem scientific_mul_tenPow (c k : Nat) (e : Int) :
    scientific (c * tenPow k) e = scientific c (e + k) := by
  rw [scientific, scientific, Nat.cast_mul, cast_tenPow, zpow_add₀ (by norm_num), mul_assoc,
    mul_comm ((10 : ℚ) ^ (k : Int))]

/-- A number lies on every finer grid. -/
theorem scientific_of_le {f : Int} (h : f ≤ e) :
    scientific c e = scientific (c * tenPow (e - f).toNat) f := by
  rw [scientific_mul_tenPow]
  congr 1
  omega

theorem tenPow_le_of_digitCount (hc : c ≠ 0) : tenPow (Text.digitCount c - 1) ≤ c := by
  apply Nat.le_of_not_lt
  intro hlt
  have hpos : 0 < Text.digitCount c := List.length_pos_iff.mpr (Text.decimalDigits_ne_nil c)
  rcases Nat.lt_or_ge 1 (Text.digitCount c) with hmany | hone
  · have hfew := (Text.length_decimalDigits_le_iff (by omega)).mpr hlt
    unfold Text.digitCount at *
    omega
  · have hzero : Text.digitCount c - 1 = 0 := by omega
    rw [hzero] at hlt
    exact hc (Nat.lt_one_iff.mp hlt)

theorem lt_tenPow_digitCount (c : Nat) : c < tenPow (Text.digitCount c) :=
  (Text.length_decimalDigits_le_iff (List.length_pos_iff.mpr (Text.decimalDigits_ne_nil c))).mp
    (Nat.le_refl _)

theorem digitCount_pos (c : Nat) : 0 < Text.digitCount c :=
  List.length_pos_iff.mpr (Text.decimalDigits_ne_nil c)

theorem scientific_lt (c : Nat) (e : Int) :
    scientific c e < 10 ^ (Text.digitCount c + e : Int) := by
  rw [zpow_add₀ (by norm_num), ← cast_tenPow, scientific]
  have h : (c : ℚ) < tenPow (Text.digitCount c) := Nat.cast_lt.mpr (lt_tenPow_digitCount c)
  gcongr

theorem le_scientific (hc : c ≠ 0) (e : Int) :
    10 ^ (Text.digitCount c + e - 1 : Int) ≤ scientific c e := by
  have hpos := digitCount_pos c
  have hexponent : (Text.digitCount c + e - 1 : Int) = (Text.digitCount c - 1 : Nat) + e := by omega
  rw [hexponent, zpow_add₀ (by norm_num), ← cast_tenPow, scientific]
  have h : (tenPow (Text.digitCount c - 1) : ℚ) ≤ c := Nat.cast_le.mpr (tenPow_le_of_digitCount hc)
  gcongr

/-- A magnitude with its sign. -/
def signed (negative : Bool) (q : ℚ) : ℚ := if negative then -q else q

/-- The value of a decimal number, if it has one. -/
def Decimal.value? : Decimal → Option ℚ
  | .finite negative coefficient exponent =>
    some (signed negative (scientific coefficient exponent))
  | .infinite _ => none
  | .nan .. => none

/-- A number is smaller than a bound, its sign aside. -/
def Decimal.IsBelow (bound : ℚ) (d : Decimal) : Prop := ∀ q, d.value? = some q → |q| < bound

theorem Decimal.isBelow_finite_iff {bound : ℚ} (negative : Bool) :
    (Decimal.finite negative c e).IsBelow bound ↔ scientific c e < bound := by
  have habs : |signed negative (scientific c e)| = scientific c e := by
    unfold signed
    split
    · rw [abs_neg, abs_of_nonneg scientific_nonneg]
    · rw [abs_of_nonneg scientific_nonneg]
  constructor
  · intro hbelow
    rw [← habs]
    exact hbelow _ rfl
  · intro hlt q hq
    rw [← Option.some.inj hq, habs]
    exact hlt

end CandleHistory.Number
