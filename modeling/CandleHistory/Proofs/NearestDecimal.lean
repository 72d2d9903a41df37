import CandleHistory.Proofs.ShortestDigits

/-!
The double nearest to a decimal number. Its magnitude is at least as near to the number as that of
any other double, and nearer than all others unless its significand is even; and it is infinite
exactly if the number reaches the middle between the largest finite double and the power of two
after it. The decimal digits of a double are therefore read as that double again.
-/

namespace CandleHistory.Number.Binary64

/-- The least number that is rounded to an infinity: it lies in the middle between the largest
finite double and two to the power 1024. -/
def overflowBound : ℚ := (twoPow 54 - 1 : Nat) * twoPow 970

/-- The double nearest to a number with a given sign and magnitude: none is nearer, and of two that
are equally near it is the one with the even significand. -/
inductive IsNearest (negative : Bool) (q : ℚ) : Binary64 → Prop
  | finite {units : Nat} (finite_range : q < overflowBound) (onGrid : OnGrid units)
      (lt : units < overflowUnits)
      (nearest : ∀ other, OnGrid other → |q - magnitude units| ≤ |q - magnitude other|)
      (ties : ∀ other, OnGrid other → other ≠ units →
        |q - magnitude other| = |q - magnitude units| → significand units % 2 = 0) :
      IsNearest negative q (.finite negative units)
  | infinite (infinite_range : overflowBound ≤ q) : IsNearest negative q (.infinite negative)

section Quotient

variable {n d units : Nat} {q : ℚ} (hd : 0 < d) (hq : q * unitsPerOne = n / d)

include hd hq

theorem abs_sub_magnitude_mul (units : Nat) :
    |q - magnitude units| * (unitsPerOne * d) = ((n : Int) - (units * d : Nat)).natAbs := by
  have hdCast : (0 : ℚ) < d := Nat.cast_pos.mpr hd
  rw [← mul_assoc, ← abs_mul_sub_eq, hq, Nat.cast_natAbs, Int.cast_abs]
  push_cast
  rw [← abs_of_pos hdCast, ← abs_mul, sub_mul, abs_of_pos hdCast, div_mul_cancel₀ _ hdCast.ne']

theorem nearestUnits_lt_overflowUnits_iff :
    nearestUnits n d < overflowUnits ↔ q < overflowBound := by
  obtain ⟨m, hrounds⟩ := exists_roundsTo n hd
  have hdCast : (0 : ℚ) < d := Nat.cast_pos.mpr hd
  have hwhole : nearestUnits n d < overflowUnits ↔
      2 * n < (twoPow 54 - 1) * (d * (twoPow 970 * (2 * unitsPerOne))) := by
    have hdouble : twoPow 1075 = 2 * unitsPerOne := by rw [unitsPerOne_eq, ← twoPow_succ]
    have hpower : twoPow 2045 = twoPow 970 * twoPow 1075 := twoPow_add 970 1075
    rw [hrounds.lt_overflow_iff, hpower, hdouble]
  have hscaled : q * (2 * unitsPerOne) = (2 * n : Nat) / d := by
    rw [mul_left_comm, hq, ← mul_div_assoc]
    norm_cast
  have hpositive : (0 : ℚ) < 2 * unitsPerOne := mul_pos (by norm_num) cast_unitsPerOne_pos
  rw [hwhole, overflowBound, ← mul_lt_mul_iff_left₀ hpositive, hscaled, div_lt_iff₀ hdCast]
  -- the powers stay unevaluated
  clear hwhole
  generalize twoPow 54 - 1 = top
  generalize twoPow 970 = power
  rw [Nat.mul_left_comm d, Nat.mul_comm d, ← Nat.mul_assoc top, ← Nat.mul_assoc _ _ d]
  norm_cast

/-- A rounded quotient is the double nearest to the quotient. -/
theorem isNearest_ofUnits (negative : Bool) : IsNearest negative q (ofUnits negative n d) := by
  obtain ⟨m, hrounds⟩ := exists_roundsTo n hd
  have hscale : (0 : ℚ) < unitsPerOne * d := mul_pos cast_unitsPerOne_pos (Nat.cast_pos.mpr hd)
  have hrange := nearestUnits_lt_overflowUnits_iff hd hq
  unfold ofUnits
  dsimp only
  split
  case isTrue hlt =>
    refine .finite (hrange.mp hlt) hrounds.onGrid hlt (fun other hother => ?_)
      (fun other hother hne heq => ?_)
    · rw [← mul_le_mul_iff_left₀ hscale, abs_sub_magnitude_mul hd hq,
        abs_sub_magnitude_mul hd hq, Nat.cast_le]
      exact hrounds.natAbs_le hother
    · rw [← mul_left_inj' hscale.ne', abs_sub_magnitude_mul hd hq, abs_sub_magnitude_mul hd hq,
        Nat.cast_inj] at heq
      exact hrounds.even_of_natAbs_eq hother hne heq
  case isFalse hge => exact .infinite (not_lt.mp fun hlt => hge (hrange.mpr hlt))

end Quotient

variable {c : Nat} {e : Int}

theorem scientific_mul_unitsPerOne (c : Nat) (e : Int) :
    scientific c e * unitsPerOne =
      (c * tenPow e.toNat * unitsPerOne : Nat) / (tenPow (-e).toNat : Nat) := by
  rw [scientific_eq_div, div_mul_eq_mul_div, ← Nat.cast_mul]

theorem nearestUnits_eq_zero {n d : Nat} (h : 2 * n < d) : nearestUnits n d = 0 := by
  have hd : 0 < d := by omega
  have hrounded : IsRounded n (d * twoPow 0) 0 := by
    have hone : twoPow 0 = 1 := rfl
    rw [hone, Nat.mul_one]
    exact ⟨by omega, by omega, fun _ => rfl⟩
  have hlt : n < d * twoPow 0 * twoPow 53 := by
    have hgrown := Nat.le_mul_of_pos_right (d * twoPow 0) (twoPow_pos 53)
    have hone : d * twoPow 0 = d := Nat.mul_one d
    omega
  rw [RoundsTo.eq ⟨hd, hlt, fun hzero => absurd hzero (Nat.lt_irrefl 0), hrounded⟩, Nat.zero_mul]

theorem nearestUnits_zero {d : Nat} (hd : 0 < d) : nearestUnits 0 d = 0 := nearestUnits_eq_zero hd

/-- A number with no digit above the 330th place after the point is less than half a unit. -/
theorem nearestUnits_scientific_eq_zero (h : Text.digitCount c + e < -330) :
    nearestUnits (c * tenPow e.toNat * unitsPerOne) (tenPow (-e).toNat) = 0 := by
  apply nearestUnits_eq_zero
  have hsmall := scientific_lt c e
  have hpower : (10 : ℚ) ^ (Text.digitCount c + e) ≤ 10 ^ (-330 : Int) :=
    zpow_le_zpow_right₀ (by norm_num) h.le
  have hunit : 2 * unitsPerOne ≤ tenPow 330 := by
    rw [unitsPerOne, ← twoPow_succ]
    decide +kernel
  have hunitCast : (10 : ℚ) ^ (-330 : Int) * (2 * unitsPerOne) ≤ 1 := by
    have hneg : (-330 : Int) = -(330 : Nat) := rfl
    rw [hneg, zpow_neg, ← cast_tenPow, inv_mul_le_iff₀ (Nat.cast_pos.mpr (tenPow_pos 330)), mul_one]
    exact_mod_cast hunit
  have hlt : scientific c e * (2 * unitsPerOne) < 1 := by
    have hscale : (0 : ℚ) < 2 * unitsPerOne := mul_pos (by norm_num) cast_unitsPerOne_pos
    exact lt_of_lt_of_le (mul_lt_mul_of_pos_right (hsmall.trans_le hpower) hscale) hunitCast
  have hd : (0 : ℚ) < tenPow (-e).toNat := Nat.cast_pos.mpr (tenPow_pos _)
  rw [mul_left_comm, scientific_mul_unitsPerOne, ← mul_div_assoc, div_lt_one hd] at hlt
  exact_mod_cast hlt

theorem overflowBound_le_zpow : overflowBound ≤ 10 ^ (310 : Int) := by
  have hbound : (twoPow 54 - 1) * twoPow 970 ≤ tenPow 310 := by decide +kernel
  calc overflowBound ≤ tenPow 310 := by
        rw [overflowBound, ← Nat.cast_mul]
        exact Nat.cast_le.mpr hbound
    _ = 10 ^ (310 : Int) := cast_tenPow 310

/-- A number with a digit above the 310th place is too large for a finite double. -/
theorem overflowBound_le_scientific (hc : c ≠ 0) (h : 310 < Text.digitCount c + e) :
    overflowBound ≤ scientific c e :=
  calc overflowBound ≤ 10 ^ (310 : Int) := overflowBound_le_zpow
    _ ≤ 10 ^ (Text.digitCount c + e - 1 : Int) := zpow_le_zpow_right₀ (by norm_num) (by omega)
    _ ≤ scientific c e := le_scientific hc e

/-- A decimal number becomes its nearest double also where its digits are only counted. -/
theorem ofScientific_eq (negative : Bool) (c : Nat) (e : Int) : ofScientific negative c e =
    ofUnits negative (c * tenPow e.toNat * unitsPerOne) (tenPow (-e).toNat) := by
  have hoverflow : 0 < overflowUnits := twoPow_pos _
  unfold ofScientific
  dsimp only
  split
  case isTrue hsmall =>
    have hzero : nearestUnits (c * tenPow e.toNat * unitsPerOne) (tenPow (-e).toNat) = 0 := by
      rcases hsmall with rfl | hlead
      · rw [Nat.zero_mul, Nat.zero_mul]
        exact nearestUnits_zero (tenPow_pos _)
      · exact nearestUnits_scientific_eq_zero hlead
    unfold ofUnits
    rw [hzero, if_pos hoverflow]
  case isFalse hlarge =>
    rw [not_or] at hlarge
    split
    case isTrue hlead =>
      have hrange :=
        nearestUnits_lt_overflowUnits_iff (tenPow_pos _) (scientific_mul_unitsPerOne c e)
      have hinfinite : ¬ nearestUnits (c * tenPow e.toNat * unitsPerOne) (tenPow (-e).toNat) <
          overflowUnits := by
        rw [hrange, not_lt]
        exact overflowBound_le_scientific hlarge.1 hlead
      unfold ofUnits
      rw [if_neg hinfinite]
    case isFalse =>
      split
      case isTrue hnonneg =>
        have hnone : (-e).toNat = 0 := by omega
        rw [hnone]
        rfl
      case isFalse hneg =>
        have hnone : e.toNat = 0 := by omega
        have hone : tenPow 0 = 1 := rfl
        rw [hnone, hone, Nat.mul_one]
        rfl

/-- The double of a decimal number is the nearest one. -/
theorem isNearest_ofScientific (negative : Bool) (c : Nat) (e : Int) :
    IsNearest negative (scientific c e) (ofScientific negative c e) := by
  rw [ofScientific_eq]
  exact isNearest_ofUnits (tenPow_pos _) (scientific_mul_unitsPerOne c e) negative

/-- A decimal number in the interval of a finite double becomes that double. -/
theorem ofScientific_eq_finite_iff {negative : Bool} {units : Nat} (hunits : OnGrid units)
    (hpos : 0 < units) (hlt : units < overflowUnits) :
    ofScientific negative c e = .finite negative units ↔
      (readBack units).Spans (scientific c e) := by
  rw [ofScientific_eq, ← nearestUnits_eq_iff_spans hunits hpos (tenPow_pos _)
    (scientific_mul_unitsPerOne c e)]
  unfold ofUnits
  dsimp only
  constructor
  · intro heq
    split at heq
    case isTrue => exact (Binary64.finite.inj heq).2
    case isFalse => cases heq
  · intro heq
    rw [heq, if_pos hlt]

/-- The digits of a double are read as the double. -/
theorem ofScientific_shortest (negative : Bool) {units : Nat} (hunits : OnGrid units)
    (hpos : 0 < units) (hlt : units < overflowUnits) :
    ofScientific negative (shortest units).1 (shortest units).2 = .finite negative units :=
  (ofScientific_eq_finite_iff hunits hpos hlt).mpr (isShortest_shortest hunits hpos).spans

theorem twoPow_le_nearestUnits {n d : Nat} (hd : 0 < d) (h : twoPow 52 * d ≤ n) :
    twoPow 52 ≤ nearestUnits n d := by
  obtain ⟨m, hrounds⟩ := exists_roundsTo n hd
  rw [hrounds.eq]
  rcases Nat.eq_zero_or_pos (droppedPlaces n d) with hzero | hplaces
  · have hone : twoPow 0 = 1 := rfl
    have hstep := hrounds.step_pos
    rw [hzero] at hrounds hstep ⊢
    rw [hone, Nat.mul_one, ← hrounds.rounded.eq hstep]
    apply le_roundHalfEven hstep
    rwa [hone, Nat.mul_one]
  · exact Nat.le_trans (hrounds.twoPow_le_of_pos hplaces) (Nat.le_mul_of_pos_right m (twoPow_pos _))

/-- A number of fifteen digits that is neither too small nor too large for a double with all its
binary places becomes a double whose digits have the value of the number. -/
theorem exists_shortest_of_lt_tenPow (negative : Bool) {digits : Nat} {exponent : Int}
    (hdigits : digits < tenPow 15) (hvalue : scientific c e = scientific digits exponent)
    (hlow : (10 : ℚ) ^ (-300 : Int) ≤ scientific c e)
    (hhigh : scientific c e ≤ 10 ^ (300 : Int)) :
    ∃ units, ofScientific negative c e = .finite negative units ∧ OnGrid units ∧ 0 < units ∧
      units < overflowUnits ∧
      scientific (shortest units).1 (shortest units).2 = scientific c e := by
  have hd := tenPow_pos (-e).toNat
  have hq := scientific_mul_unitsPerOne c e
  obtain ⟨m, hrounds⟩ := exists_roundsTo (c * tenPow e.toNat * unitsPerOne) hd
  have hlt :
      nearestUnits (c * tenPow e.toNat * unitsPerOne) (tenPow (-e).toNat) < overflowUnits := by
    rw [nearestUnits_lt_overflowUnits_iff hd hq, overflowBound, ← Nat.cast_mul]
    have hbound : tenPow 300 < (twoPow 54 - 1) * twoPow 970 := by decide +kernel
    have hpower : (10 : ℚ) ^ (300 : Int) = tenPow 300 := (cast_tenPow 300).symm
    rw [hpower] at hhigh
    exact hhigh.trans_lt (Nat.cast_lt.mpr hbound)
  have hlarge :
      twoPow 52 ≤ nearestUnits (c * tenPow e.toNat * unitsPerOne) (tenPow (-e).toNat) := by
    apply twoPow_le_nearestUnits hd
    have hbound : twoPow 52 * tenPow 300 ≤ unitsPerOne := by decide +kernel
    have hboundCast : (twoPow 52 * tenPow 300 : ℚ) ≤ unitsPerOne := by exact_mod_cast hbound
    have hpower : (10 : ℚ) ^ (-300 : Int) = (tenPow 300 : ℚ)⁻¹ := by
      rw [cast_tenPow, ← zpow_neg]
      rfl
    have hproduct : (twoPow 52 : ℚ) ≤ scientific c e * unitsPerOne := by
      rw [hpower, inv_le_iff_one_le_mul₀ (Nat.cast_pos.mpr (tenPow_pos 300))] at hlow
      calc (twoPow 52 : ℚ) ≤ scientific c e * tenPow 300 * twoPow 52 :=
            le_mul_of_one_le_left (Nat.cast_nonneg _) hlow
        _ = scientific c e * (twoPow 52 * tenPow 300) := by ring
        _ ≤ scientific c e * unitsPerOne := mul_le_mul_of_nonneg_left hboundCast scientific_nonneg
    rw [hq, le_div_iff₀ (Nat.cast_pos.mpr hd)] at hproduct
    exact_mod_cast hproduct
  have hpos := Nat.lt_of_lt_of_le (twoPow_pos 52) hlarge
  refine ⟨_, ?_, hrounds.onGrid, hpos, hlt, ?_⟩
  · rw [ofScientific_eq, ofUnits, if_pos hlt]
  · have hspans := (nearestUnits_eq_iff_spans hrounds.onGrid hpos hd hq).mp rfl
    rw [hvalue] at hspans ⊢
    exact scientific_shortest_eq hrounds.onGrid hlarge hdigits hspans

end CandleHistory.Number.Binary64
