import CandleHistory.Number.Binary64

/-!
Bounds on rounding to the nearest double. Rounding does not cross a number that lies on the grid of
the double it rounds to, so a bound on a quotient is a bound on the rounded quotient. Numbers that
are not too large have a grid that contains all multiples of a given power of two.
-/

namespace CandleHistory.Number

theorem roundHalfEven_le {n d k : Nat} (hd : 0 < d) (h : n ≤ k * d) : roundHalfEven n d ≤ k := by
  have hround := two_mul_roundHalfEven_le n d
  apply Nat.le_of_not_lt
  intro hgt
  have hmul : (k + 1) * d ≤ roundHalfEven n d * d := Nat.mul_le_mul_right d (by omega)
  rw [Nat.add_mul] at hmul
  omega

theorem le_roundHalfEven {n d k : Nat} (hd : 0 < d) (h : k * d ≤ n) : k ≤ roundHalfEven n d := by
  have hround := le_two_mul_roundHalfEven n d hd
  apply Nat.le_of_not_lt
  intro hlt
  have hmul : (roundHalfEven n d + 1) * d ≤ k * d := Nat.mul_le_mul_right d (by omega)
  rw [Nat.add_mul] at hmul
  omega

theorem twoPow_add (j k : Nat) : twoPow (j + k) = twoPow j * twoPow k := Nat.pow_add 2 j k

theorem twoPow_dvd {j k : Nat} (h : j ≤ k) : twoPow j ∣ twoPow k := Nat.pow_dvd_pow 2 h

theorem twoPow_le {j k : Nat} (h : j ≤ k) : twoPow j ≤ twoPow k :=
  Nat.pow_le_pow_right (by decide) h

theorem tenPow_le {j k : Nat} (h : j ≤ k) : tenPow j ≤ tenPow k :=
  Nat.pow_le_pow_right (by decide) h

theorem log2_twoPow (k : Nat) : (twoPow k).log2 = k := Nat.log2_two_pow

namespace Binary64

theorem unitsPerOne_pos : 0 < unitsPerOne := twoPow_pos 1074

/-- A rounded quotient stays below every number of its grid that the quotient stays below. -/
theorem nearestUnits_le {n d m : Nat} (hd : 0 < d) (hgrid : twoPow (droppedPlaces n d) ∣ m)
    (h : n ≤ m * d) : nearestUnits n d ≤ m := by
  obtain ⟨k, rfl⟩ := hgrid
  unfold nearestUnits
  have hstep := twoPow_pos (droppedPlaces n d)
  have hround : roundHalfEven n (d * twoPow (droppedPlaces n d)) ≤ k := by
    apply roundHalfEven_le (Nat.mul_pos hd hstep)
    calc n ≤ twoPow (droppedPlaces n d) * k * d := h
      _ = k * (d * twoPow (droppedPlaces n d)) := by ac_rfl
  calc roundHalfEven n (d * twoPow (droppedPlaces n d)) * twoPow (droppedPlaces n d)
      ≤ k * twoPow (droppedPlaces n d) := Nat.mul_le_mul_right _ hround
    _ = twoPow (droppedPlaces n d) * k := Nat.mul_comm _ _

/-- A rounded quotient stays above every number of its grid that the quotient stays above. -/
theorem le_nearestUnits {n d m : Nat} (hd : 0 < d) (hgrid : twoPow (droppedPlaces n d) ∣ m)
    (h : m * d ≤ n) : m ≤ nearestUnits n d := by
  obtain ⟨k, rfl⟩ := hgrid
  unfold nearestUnits
  have hstep := twoPow_pos (droppedPlaces n d)
  have hround : k ≤ roundHalfEven n (d * twoPow (droppedPlaces n d)) := by
    apply le_roundHalfEven (Nat.mul_pos hd hstep)
    calc k * (d * twoPow (droppedPlaces n d)) = twoPow (droppedPlaces n d) * k * d := by ac_rfl
      _ ≤ n := h
  calc twoPow (droppedPlaces n d) * k = k * twoPow (droppedPlaces n d) := Nat.mul_comm _ _
    _ ≤ roundHalfEven n (d * twoPow (droppedPlaces n d)) * twoPow (droppedPlaces n d) :=
      Nat.mul_le_mul_right _ hround

/-- A quotient that is at least one unit is not rounded to nothing. -/
theorem nearestUnits_pos {n d : Nat} (hd : 0 < d) (h : d ≤ n) : 0 < nearestUnits n d := by
  have hstep := twoPow_pos (droppedPlaces n d)
  have hroom : 1 * (d * twoPow (droppedPlaces n d)) ≤ n := by
    rw [Nat.one_mul]
    by_cases hplaces : droppedPlaces n d = 0
    · rw [hplaces]
      exact (Nat.mul_one d).symm ▸ h
    · have hlog : droppedPlaces n d + (d.log2 + 1) ≤ n.log2 := by
        have hfew : droppedPlaces n d ≤ n.log2 - (d.log2 + 52) := by
          unfold droppedPlaces
          dsimp only
          split <;> omega
        omega
      calc d * twoPow (droppedPlaces n d)
          ≤ twoPow (d.log2 + 1) * twoPow (droppedPlaces n d) :=
            Nat.mul_le_mul_right _ (Nat.le_of_lt Nat.lt_log2_self)
        _ = twoPow (droppedPlaces n d + (d.log2 + 1)) := by
          rw [twoPow_add _ (d.log2 + 1), Nat.mul_comm]
        _ ≤ twoPow n.log2 := twoPow_le hlog
        _ ≤ n := Nat.log2_self_le (by omega)
  exact Nat.mul_pos (le_roundHalfEven (Nat.mul_pos hd hstep) hroom) hstep

/-- A quotient below `2 ^ (k + 53)` has a grid that contains the multiples of `2 ^ k`, up to the
slack in the length of the denominator. -/
theorem twoPow_droppedPlaces_dvd {n d k : Nat} (h : n < twoPow (k + 53 + d.log2)) :
    twoPow (droppedPlaces n d) ∣ twoPow k := by
  apply twoPow_dvd
  have hlog : n.log2 < k + 53 + d.log2 := by
    by_cases hn : n = 0
    · have hzero : n.log2 = 0 := by rw [hn, Nat.log2_zero]
      omega
    · exact (Nat.log2_lt hn).mpr h
  unfold droppedPlaces
  dsimp only
  split <;> omega

theorem unitsPerOne_eq : unitsPerOne = twoPow 1074 := rfl

/-- A whole number that a double can hold is not changed by rounding. -/
theorem nearestUnits_whole {k : Nat} (h : k < twoPow 53) :
    nearestUnits (k * unitsPerOne) 1 = k * unitsPerOne := by
  have hlarge : k * unitsPerOne < twoPow (1074 + 53 + Nat.log2 1) := by
    rw [twoPow_add, twoPow_add, ← unitsPerOne_eq]
    calc k * unitsPerOne < twoPow 53 * unitsPerOne := Nat.mul_lt_mul_of_pos_right h unitsPerOne_pos
      _ = unitsPerOne * twoPow 53 := Nat.mul_comm _ _
      _ ≤ unitsPerOne * twoPow 53 * twoPow (Nat.log2 1) :=
        Nat.le_mul_of_pos_right _ (twoPow_pos _)
  have hgrid : twoPow (droppedPlaces (k * unitsPerOne) 1) ∣ k * unitsPerOne :=
    Nat.dvd_trans (twoPow_droppedPlaces_dvd hlarge) (Nat.dvd_mul_left _ _)
  apply Nat.le_antisymm
  · exact nearestUnits_le Nat.one_pos hgrid (Nat.le_of_eq (Nat.mul_one _).symm)
  · exact le_nearestUnits Nat.one_pos hgrid (Nat.le_of_eq (Nat.mul_one _))

theorem unitsPerOne_log2 : unitsPerOne.log2 = 1074 := log2_twoPow 1074

theorem overflowUnits_eq : overflowUnits = twoPow 1024 * unitsPerOne := by
  have hplaces : 2098 = 1024 + 1074 := by decide
  rw [unitsPerOne_eq, ← twoPow_add, ← hplaces, overflowUnits]

theorem mul_def (x y : Binary64) : x * y = x.mul y := rfl

theorem finite_mul (s t : Bool) (u v : Nat) :
    finite s u * finite t v = ofUnits (s != t) (u * v) unitsPerOne := by
  rw [mul_def, mul]

theorem round_finite (u : Nat) :
    (finite false u).round? = some (roundHalfEven u unitsPerOne : Int) := rfl

/-- A rounded magnitude that is not too large is a finite double. -/
theorem ofUnits_eq_finite {negative : Bool} {n d k : Nat}
    (h : nearestUnits n d ≤ k * unitsPerOne) (hk : k < twoPow 53) :
    ofUnits negative n d = .finite negative (nearestUnits n d) := by
  have hpow : twoPow 53 ≤ twoPow 1024 := twoPow_le (by decide)
  have hfinite : nearestUnits n d < overflowUnits := by
    rw [overflowUnits_eq]
    calc nearestUnits n d ≤ k * unitsPerOne := h
      _ < twoPow 1024 * unitsPerOne :=
        Nat.mul_lt_mul_of_pos_right (Nat.lt_of_lt_of_le hk hpow) unitsPerOne_pos
  unfold ofUnits
  exact if_pos hfinite

theorem ofInt_natCast {k : Nat} (h : k < twoPow 53) :
    ofInt (k : Int) = .finite false (k * unitsPerOne) := by
  have hwhole := nearestUnits_whole h
  have hfinite : ofUnits false (k * unitsPerOne) 1 = .finite false _ :=
    ofUnits_eq_finite (Nat.le_of_eq hwhole) h
  rw [hwhole] at hfinite
  have hsign : decide ((k : Int) < 0) = false := by
    rw [decide_eq_false_iff_not]
    omega
  unfold ofInt ofIntRatio ofRatio
  rw [hsign, Int.natAbs_natCast]
  exact hfinite

/-- Unless it is rounded to nothing, a quotient lies below zero exactly if its sign says so. -/
theorem ofUnits_lt_zero {negative : Bool} {n d : Nat} (h : negative = true → 0 < nearestUnits n d) :
    (ofUnits negative n d).lt zero = negative := by
  unfold ofUnits zero
  dsimp only
  split
  · cases negative with
    | false => simp [lt, signedUnits]
    | true =>
        have hpos := h rfl
        simp [lt, signedUnits]
        omega
  · rfl

/-- A quotient of an integer lies below zero exactly if the integer does. -/
theorem ofIntRatio_lt_zero_iff {n : Int} {d : Nat} (hd : 0 < d) (hsmall : d ≤ unitsPerOne) :
    (ofIntRatio n d).lt zero = true ↔ n < 0 := by
  unfold ofIntRatio ofRatio
  rw [ofUnits_lt_zero, decide_eq_true_iff]
  intro hnegative
  have hn : 1 ≤ n.natAbs := by
    have hlt := of_decide_eq_true hnegative
    omega
  apply nearestUnits_pos hd
  calc d ≤ unitsPerOne := hsmall
    _ ≤ n.natAbs * unitsPerOne := Nat.le_mul_of_pos_left _ hn

end Binary64

end CandleHistory.Number
