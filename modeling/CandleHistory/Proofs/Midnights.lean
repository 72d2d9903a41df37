import CandleHistory.Calendar.DateText
import CandleHistory.Proofs.NearestDouble

/-!
Whole seconds on their way through doubles. A number of seconds that is not too large is a double
itself, and so is its number of milliseconds, so neither the quotient nor the product is rounded.
The start of a date is such an instant.
-/

namespace CandleHistory

open Number (twoPow)

namespace Number.Binary64

/-- A quotient that is a whole number, and not too large, is not changed by rounding. -/
theorem nearestUnits_mul {k d : Nat} (hd : 0 < d) (hk : k < twoPow 52) :
    nearestUnits (k * unitsPerOne * d) d = k * unitsPerOne := by
  have hlarge : k * unitsPerOne * d < twoPow (1074 + 53 + d.log2) := by
    have hplaces : 1074 + 53 + d.log2 = 52 + 1074 + (d.log2 + 1) := by omega
    rw [hplaces, twoPow_add, twoPow_add 52, ← unitsPerOne_eq]
    apply Nat.mul_lt_mul_of_lt_of_le
    · exact Nat.mul_lt_mul_of_pos_right hk unitsPerOne_pos
    · exact Nat.le_of_lt Nat.lt_log2_self
    · exact twoPow_pos _
  have hgrid : twoPow (droppedPlaces (k * unitsPerOne * d) d) ∣ k * unitsPerOne :=
    Nat.dvd_trans (twoPow_droppedPlaces_dvd hlarge) (Nat.dvd_mul_left _ _)
  apply Nat.le_antisymm
  · exact nearestUnits_le hd hgrid (Nat.le_refl _)
  · exact le_nearestUnits hd hgrid (Nat.le_refl _)

/-- The double of such a quotient. -/
theorem ofUnits_mul {negative : Bool} {k d : Nat} (hd : 0 < d) (hk : k < twoPow 52) :
    ofUnits negative (k * unitsPerOne * d) d = .finite negative (k * unitsPerOne) := by
  have hexact := nearestUnits_mul hd hk
  have hfinite : ofUnits negative (k * unitsPerOne * d) d = .finite negative _ :=
    ofUnits_eq_finite (Nat.le_of_eq hexact) (Nat.lt_of_lt_of_le hk (twoPow_le (by decide)))
  rw [hfinite, hexact]

end Number.Binary64

namespace Calendar

open Number (Binary64)

/-- An instant at a whole second has the milliseconds that belong to it. -/
theorem Instant.toMillis_of_seconds {seconds : Int} (h : 1000 * seconds.natAbs < twoPow 52) :
    (Instant.mk (seconds * 1000000)).toMillis = 1000 * seconds := by
  have hsmall : seconds.natAbs < twoPow 52 := by omega
  have hsign : decide (seconds * 1000000 < 0) = decide (seconds < 0) := by
    rw [decide_eq_decide]
    omega
  have hquotient : Binary64.ofIntRatio (seconds * 1000000) 1000000 =
      .finite (seconds < 0) (seconds.natAbs * Binary64.unitsPerOne) := by
    have habs : (seconds * 1000000).natAbs * Binary64.unitsPerOne =
        seconds.natAbs * Binary64.unitsPerOne * 1000000 := by
      rw [Int.natAbs_mul]
      exact Nat.mul_right_comm _ _ _
    unfold Binary64.ofIntRatio Binary64.ofRatio
    rw [hsign, habs, Binary64.ofUnits_mul (by decide) hsmall]
  have hthousand : Binary64.ofInt 1000 = .finite false (1000 * Binary64.unitsPerOne) :=
    Binary64.ofInt_natCast (k := 1000) (by decide)
  have hproduct : Binary64.ofIntRatio (seconds * 1000000) 1000000 * Binary64.ofInt 1000 =
      .finite (seconds < 0) (1000 * seconds.natAbs * Binary64.unitsPerOne) := by
    have hfactor : seconds.natAbs * Binary64.unitsPerOne * (1000 * Binary64.unitsPerOne) =
        1000 * seconds.natAbs * Binary64.unitsPerOne * Binary64.unitsPerOne := by
      generalize Binary64.unitsPerOne = one
      ac_rfl
    rw [hquotient, hthousand, Binary64.finite_mul, hfactor,
      Binary64.ofUnits_mul Binary64.unitsPerOne_pos h, Bool.bne_false]
  have hwhole : 1000 * seconds.natAbs * Binary64.unitsPerOne / Binary64.unitsPerOne =
      1000 * seconds.natAbs := Nat.mul_div_cancel _ Binary64.unitsPerOne_pos
  unfold Instant.toMillis
  rw [hproduct]
  change Binary64.signedUnits (seconds < 0) _ = _
  rw [hwhole]
  unfold Binary64.signedUnits
  split
  case isTrue hneg =>
    have hlt := of_decide_eq_true hneg
    omega
  case isFalse hnonneg =>
    have hge : ¬ seconds < 0 := fun hlt => hnonneg (decide_eq_true hlt)
    omega

/-- The start of a date is had without loss. -/
theorem WallTime.toMillis_midnight {date : Date} (h : date.dayCount < 10000000) :
    (WallTime.midnight date).instant.toMillis = date.startMillis := by
  have hinstant : (WallTime.midnight date).instant =
      ⟨86400 * ((date.dayCount : Int) - epochDay) * 1000000⟩ := by
    unfold midnight instant Instant.firstSecond daySeconds
    simp only [Option.getD_some, Instant.mk.injEq]
    omega
  have hepoch : (epochDay : Int) = 719162 := rfl
  have hpow : twoPow 52 = 4503599627370496 := by decide
  rw [hinstant, Instant.toMillis_of_seconds]
  · unfold Date.startMillis
    omega
  · rw [hpow, hepoch]
    omega

end Calendar

end CandleHistory
