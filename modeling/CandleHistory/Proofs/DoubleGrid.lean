import CandleHistory.Proofs.NearestDouble

/-!
The magnitudes of doubles. A magnitude is a significand of at most 53 binary places with zeros
behind it, and the finest grid that it fits is known from its size. A rounded quotient is such a
magnitude, no other one is nearer to the quotient, and of two that are equally near it has the even
significand. It is too large for a finite double exactly if the quotient lies at or above the middle
between the largest of these and the power of two after it.
-/

namespace CandleHistory.Number

/-- A rounded quotient lies half a unit away from the quotient at most, and is even if it lies half
a unit away. -/
structure IsRounded (n d k : Nat) : Prop where
  le_add : 2 * (k * d) ≤ 2 * n + d
  add_le : 2 * n ≤ 2 * (k * d) + d
  even : 2 * (k * d) = 2 * n + d ∨ 2 * n = 2 * (k * d) + d → k % 2 = 0

theorem isRounded_roundHalfEven {n d : Nat} (hd : 0 < d) : IsRounded n d (roundHalfEven n d) where
  le_add := two_mul_roundHalfEven_le n d
  add_le := le_two_mul_roundHalfEven n d hd
  even := by
    intro htie
    apply roundHalfEven_tie
    have hdivision := Nat.div_add_mod n d
    have hrest := Nat.mod_lt n hd
    rcases roundHalfEven_eq_or n d with hlow | hhigh
    · rw [hlow, Nat.mul_comm (n / d) d] at htie
      omega
    · rw [hhigh, Nat.add_mul, Nat.mul_comm (n / d) d] at htie
      omega

/-- Of two such numbers neither is above the other: both would be even, and next to each other. -/
theorem IsRounded.le {n d j k : Nat} (hd : 0 < d) (hj : IsRounded n d j) (hk : IsRounded n d k) :
    j ≤ k := by
  apply Nat.le_of_not_lt
  intro hlt
  have hle := hj.le_add
  have hge := hk.add_le
  have hstep : (k + 1) * d ≤ j * d := Nat.mul_le_mul_right d hlt
  have hnext : j ≤ k + 1 := by
    apply Nat.le_of_mul_le_mul_right _ hd
    rw [Nat.add_mul]
    omega
  rw [Nat.add_mul] at hstep
  have hjEven := hj.even (by omega)
  have hkEven := hk.even (by omega)
  omega

theorem IsRounded.eq {n d k : Nat} (hd : 0 < d) (h : IsRounded n d k) : roundHalfEven n d = k :=
  have hrounded := isRounded_roundHalfEven hd
  Nat.le_antisymm (hrounded.le hd h) (h.le hd hrounded)

namespace IsRounded

variable {n d k : Nat} (h : IsRounded n d k)

include h

/-- No whole number is nearer to the quotient. -/
theorem natAbs_le (j : Nat) :
    ((n : Int) - (k * d : Nat)).natAbs ≤ ((n : Int) - (j * d : Nat)).natAbs := by
  have hle := h.le_add
  have hge := h.add_le
  rcases Nat.lt_trichotomy j k with hlt | rfl | hgt
  · have hstep : (j + 1) * d ≤ k * d := Nat.mul_le_mul_right d hlt
    rw [Nat.add_mul] at hstep
    omega
  · exact Nat.le_refl _
  · have hstep : (k + 1) * d ≤ j * d := Nat.mul_le_mul_right d hgt
    rw [Nat.add_mul] at hstep
    omega

/-- If another whole number is as near, it is the even one. -/
theorem even_of_natAbs_eq {j : Nat} (hd : 0 < d) (hne : j ≠ k)
    (heq : ((n : Int) - (j * d : Nat)).natAbs = ((n : Int) - (k * d : Nat)).natAbs) :
    k % 2 = 0 := by
  have hle := h.le_add
  have hge := h.add_le
  apply h.even
  rcases Nat.lt_or_gt_of_ne hne with hlt | hgt
  · have hstep : (j + 1) * d ≤ k * d := Nat.mul_le_mul_right d hlt
    rw [Nat.add_mul] at hstep
    omega
  · have hstep : (k + 1) * d ≤ j * d := Nat.mul_le_mul_right d hgt
    rw [Nat.add_mul] at hstep
    omega

end IsRounded

namespace Binary64

theorem lt_mul_twoPow {n d places : Nat} (hd : 0 < d) (h : n.log2 ≤ places + d.log2) :
    n < d * twoPow (places + 1) := by
  calc n < twoPow (n.log2 + 1) := Nat.lt_log2_self
    _ ≤ twoPow (d.log2 + (places + 1)) := twoPow_le (by omega)
    _ = twoPow d.log2 * twoPow (places + 1) := twoPow_add _ _
    _ ≤ d * twoPow (places + 1) := Nat.mul_le_mul_right _ (Nat.log2_self_le (by omega))

theorem mul_twoPow_le {n d places : Nat} (hn : 0 < n) (h : places + (d.log2 + 1) ≤ n.log2) :
    d * twoPow places ≤ n := by
  calc d * twoPow places ≤ twoPow (d.log2 + 1) * twoPow places :=
        Nat.mul_le_mul_right _ (Nat.le_of_lt Nat.lt_log2_self)
    _ = twoPow (places + (d.log2 + 1)) := by rw [twoPow_add places, Nat.mul_comm]
    _ ≤ twoPow n.log2 := twoPow_le h
    _ ≤ n := Nat.log2_self_le (by omega)

/-- The dropped places are the fewest for which the quotient has no more than 53 binary places left.
-/
theorem droppedPlaces_le_iff {n d p : Nat} (hd : 0 < d) :
    droppedPlaces n d ≤ p ↔ n < d * twoPow (p + 53) := by
  have hgrow {j k : Nat} (h : j ≤ k) : d * twoPow j ≤ d * twoPow k :=
    Nat.mul_le_mul_left d (twoPow_le h)
  have hall : n < d * twoPow (n.log2 - (d.log2 + 52) + 53) := lt_mul_twoPow hd (by omega)
  have hsome (h : 0 < n.log2 - (d.log2 + 52)) : d * twoPow (n.log2 - (d.log2 + 52) + 51) ≤ n := by
    apply mul_twoPow_le _ (by omega)
    apply Nat.pos_of_ne_zero
    rintro rfl
    rw [Nat.log2_zero] at h
    omega
  unfold droppedPlaces
  dsimp only
  generalize n.log2 - (d.log2 + 52) = places at hall hsome ⊢
  split
  case isTrue hfewer =>
    obtain ⟨hpos, hlt⟩ := hfewer
    constructor
    · intro hp
      exact Nat.lt_of_lt_of_le hlt (hgrow (by omega))
    · intro hn
      apply Nat.le_of_not_lt
      intro hp
      have hle := hgrow (j := p + 53) (k := places + 51) (by omega)
      have hsum := hsome hpos
      omega
  case isFalse hnot =>
    constructor
    · intro hp
      exact Nat.lt_of_lt_of_le hall (hgrow (by omega))
    · intro hn
      apply Nat.le_of_not_lt
      intro hp
      have hle := hgrow (j := p + 53) (k := places + 52) (by omega)
      exact hnot ⟨by omega, by omega⟩

/-- The magnitudes of doubles: 53 binary places, with zeros behind them. -/
def OnGrid (units : Nat) : Prop :=
  ∃ significand places, significand < twoPow 53 ∧ units = significand * twoPow places

/-- The binary places that a magnitude holds, without the zeros of its grid. -/
def significand (units : Nat) : Nat := units / twoPow (droppedPlaces units 1)

theorem droppedPlaces_whole_le_iff {units p : Nat} :
    droppedPlaces units 1 ≤ p ↔ units < twoPow 53 * twoPow p := by
  rw [droppedPlaces_le_iff Nat.one_pos, Nat.one_mul, twoPow_add, Nat.mul_comm]

theorem onGrid_iff_dvd {units : Nat} : OnGrid units ↔ twoPow (droppedPlaces units 1) ∣ units := by
  constructor
  · rintro ⟨m, places, hm, rfl⟩
    have hplaces : droppedPlaces (m * twoPow places) 1 ≤ places :=
      droppedPlaces_whole_le_iff.mpr (Nat.mul_lt_mul_of_pos_right hm (twoPow_pos places))
    exact Nat.dvd_trans (twoPow_dvd hplaces) (Nat.dvd_mul_left _ _)
  · intro h
    refine ⟨significand units, droppedPlaces units 1, ?_, (Nat.div_mul_cancel h).symm⟩
    apply Nat.lt_of_mul_lt_mul_right (a := twoPow (droppedPlaces units 1))
    rw [significand, Nat.div_mul_cancel h]
    exact droppedPlaces_whole_le_iff.mp (Nat.le_refl _)

theorem significand_mul_twoPow {units : Nat} (h : OnGrid units) :
    significand units * twoPow (droppedPlaces units 1) = units :=
  Nat.div_mul_cancel (onGrid_iff_dvd.mp h)

theorem twoPow_succ (k : Nat) : twoPow (k + 1) = 2 * twoPow k := by
  rw [twoPow_add, Nat.mul_comm]
  rfl

theorem twoPow_lt {j k : Nat} (h : j < k) : twoPow j < twoPow k :=
  Nat.pow_lt_pow_right (by decide) h

theorem twoPow_carry (p : Nat) : twoPow 53 * twoPow p = twoPow 52 * twoPow (p + 1) := by
  rw [twoPow_succ p, twoPow_succ 52]
  ac_rfl

/-- A significand on the finest grid that it fits: it has no more than 53 places, and all of them
are used unless the grid is that of the units. -/
structure Fits (m p : Nat) : Prop where
  lt : m < twoPow 53
  ge : 0 < p → twoPow 52 ≤ m

theorem fits_carry (p : Nat) : Fits (twoPow 52) (p + 1) := ⟨by decide, fun _ => Nat.le_refl _⟩

theorem Fits.droppedPlaces_eq {m p : Nat} (h : Fits m p) : droppedPlaces (m * twoPow p) 1 = p := by
  apply Nat.le_antisymm
  · exact droppedPlaces_whole_le_iff.mpr (Nat.mul_lt_mul_of_pos_right h.lt (twoPow_pos p))
  · apply Nat.le_of_not_lt
    intro hfewer
    obtain ⟨q, rfl⟩ : ∃ q, p = q + 1 := ⟨p - 1, by omega⟩
    have hlt := droppedPlaces_whole_le_iff.mp (Nat.lt_succ_iff.mp hfewer)
    have hfull := Nat.mul_le_mul_right (twoPow (q + 1)) (h.ge (Nat.succ_pos q))
    rw [twoPow_carry] at hlt
    omega

theorem Fits.significand_eq {m p : Nat} (h : Fits m p) : significand (m * twoPow p) = m := by
  rw [significand, h.droppedPlaces_eq]
  exact Nat.mul_div_cancel m (twoPow_pos p)

/-- Every magnitude is a significand on the finest grid that it fits. -/
theorem OnGrid.fits {units : Nat} (h : OnGrid units) :
    Fits (significand units) (droppedPlaces units 1) := by
  have heq := significand_mul_twoPow h
  constructor
  · apply Nat.lt_of_mul_lt_mul_right (a := twoPow (droppedPlaces units 1))
    rw [heq]
    exact droppedPlaces_whole_le_iff.mp (Nat.le_refl _)
  · intro hpos
    obtain ⟨q, hq⟩ : ∃ q, droppedPlaces units 1 = q + 1 := ⟨droppedPlaces units 1 - 1, by omega⟩
    have hmore : ¬ droppedPlaces units 1 ≤ q := by omega
    rw [droppedPlaces_whole_le_iff, Nat.not_lt, twoPow_carry, ← hq] at hmore
    apply Nat.le_of_mul_le_mul_right _ (twoPow_pos (droppedPlaces units 1))
    rwa [heq]

/-- A quotient `n / d` is rounded to `m` steps of the grid `2 ^ p`. -/
structure RoundsTo (n d p m : Nat) : Prop where
  denominator_pos : 0 < d
  lt : n < d * twoPow p * twoPow 53
  ge : 0 < p → d * twoPow p * twoPow 52 ≤ n
  rounded : IsRounded n (d * twoPow p) m

theorem exists_roundsTo (n : Nat) {d : Nat} (hd : 0 < d) :
    ∃ m, RoundsTo n d (droppedPlaces n d) m := by
  have hlt := (droppedPlaces_le_iff hd).mp (Nat.le_refl (droppedPlaces n d))
  refine ⟨_, hd, ?_, ?_, isRounded_roundHalfEven (Nat.mul_pos hd (twoPow_pos _))⟩
  · rwa [Nat.mul_assoc, ← twoPow_add]
  · intro hpos
    have hmore : ¬ droppedPlaces n d ≤ droppedPlaces n d - 1 := by omega
    have hplaces : droppedPlaces n d - 1 + 53 = droppedPlaces n d + 52 := by omega
    rw [droppedPlaces_le_iff hd, hplaces, Nat.not_lt] at hmore
    rwa [Nat.mul_assoc, ← twoPow_add]

namespace RoundsTo

variable {n d p m : Nat} (h : RoundsTo n d p m)

include h

theorem step_pos : 0 < d * twoPow p := Nat.mul_pos h.denominator_pos (twoPow_pos p)

theorem places_eq : droppedPlaces n d = p := by
  have hregroup (k : Nat) : d * twoPow (p + k) = d * twoPow p * twoPow k := by
    rw [twoPow_add, Nat.mul_assoc]
  apply Nat.le_antisymm
  · rw [droppedPlaces_le_iff h.denominator_pos, hregroup]
    exact h.lt
  · apply Nat.le_of_not_lt
    intro hfewer
    have hpos : 0 < p := Nat.lt_of_le_of_lt (Nat.zero_le _) hfewer
    have hlt := (droppedPlaces_le_iff h.denominator_pos).mp (Nat.le_sub_one_of_lt hfewer)
    have hplaces : p - 1 + 53 = p + 52 := by omega
    rw [hplaces, hregroup] at hlt
    exact Nat.not_le.mpr hlt (h.ge hpos)

theorem eq : nearestUnits n d = m * twoPow p := by
  unfold nearestUnits
  rw [h.places_eq]
  dsimp only
  rw [h.rounded.eq h.step_pos]

theorem le_twoPow : m ≤ twoPow 53 := by
  rw [← h.rounded.eq h.step_pos]
  apply roundHalfEven_le h.step_pos
  rw [Nat.mul_comm]
  exact Nat.le_of_lt h.lt

theorem twoPow_le_of_pos (hp : 0 < p) : twoPow 52 ≤ m := by
  rw [← h.rounded.eq h.step_pos]
  apply le_roundHalfEven h.step_pos
  rw [Nat.mul_comm]
  exact h.ge hp

/-- Either the rounded quotient fits its grid, or it is the power of two after all numbers that do.
-/
theorem fits_or_eq : Fits m p ∨ m = twoPow 53 := by
  rcases Nat.lt_or_eq_of_le h.le_twoPow with hlt | heq
  · exact Or.inl ⟨hlt, h.twoPow_le_of_pos⟩
  · exact Or.inr heq

theorem onGrid : OnGrid (nearestUnits n d) := by
  rw [h.eq]
  rcases h.fits_or_eq with hfits | rfl
  · exact ⟨m, p, hfits.lt, rfl⟩
  · exact ⟨twoPow 52, p + 1, (fits_carry p).lt, twoPow_carry p⟩

/-- The parity of the steps is the parity of the significand. -/
theorem significand_even (heven : m % 2 = 0) : significand (nearestUnits n d) % 2 = 0 := by
  rw [h.eq]
  rcases h.fits_or_eq with hfits | rfl
  · rwa [hfits.significand_eq]
  · rw [twoPow_carry, (fits_carry p).significand_eq]
    decide

/-- A magnitude that is not on the grid of a rounded quotient lies below all of the grid's numbers
that have 53 places. -/
theorem exists_mul_or_lt {v : Nat} (hv : OnGrid v) :
    (∃ j, v = j * twoPow p) ∨ 0 < p ∧ v < twoPow 52 * twoPow p := by
  by_cases hfine : p ≤ droppedPlaces v 1
  · obtain ⟨j, hj⟩ := Nat.dvd_trans (twoPow_dvd hfine) (onGrid_iff_dvd.mp hv)
    exact Or.inl ⟨j, hj.trans (Nat.mul_comm _ _)⟩
  · obtain ⟨q, rfl⟩ : ∃ q, p = q + 1 := ⟨p - 1, by omega⟩
    have hlt := droppedPlaces_whole_le_iff.mp (Nat.lt_succ_iff.mp (Nat.not_le.mp hfine))
    rw [twoPow_carry] at hlt
    exact Or.inr ⟨Nat.succ_pos q, hlt⟩

/-- No other magnitude is nearer to the quotient than the rounded one. -/
theorem natAbs_le {v : Nat} (hv : OnGrid v) :
    ((n : Int) - (nearestUnits n d * d : Nat)).natAbs ≤ ((n : Int) - (v * d : Nat)).natAbs := by
  have hregroup (j : Nat) : j * twoPow p * d = j * (d * twoPow p) := by ac_rfl
  rw [h.eq, hregroup]
  rcases exists_mul_or_lt h hv with ⟨j, rfl⟩ | ⟨hp, hlt⟩
  · rw [hregroup]
    exact h.rounded.natAbs_le j
  · have hge := h.ge hp
    have hpower := h.rounded.natAbs_le (twoPow 52)
    have hbelow : v * d ≤ twoPow 52 * (d * twoPow p) := by
      rw [← hregroup]
      exact Nat.mul_le_mul_right d (Nat.le_of_lt hlt)
    rw [Nat.mul_comm (d * twoPow p)] at hge
    omega

/-- If another magnitude is as near, the rounded one has the even significand. -/
theorem even_of_natAbs_eq {v : Nat} (hv : OnGrid v) (hne : v ≠ nearestUnits n d)
    (heq : ((n : Int) - (v * d : Nat)).natAbs = ((n : Int) - (nearestUnits n d * d : Nat)).natAbs) :
    significand (nearestUnits n d) % 2 = 0 := by
  have hregroup (j : Nat) : j * twoPow p * d = j * (d * twoPow p) := by ac_rfl
  apply h.significand_even
  rw [h.eq] at hne heq
  rw [hregroup m] at heq
  rcases exists_mul_or_lt h hv with ⟨j, rfl⟩ | ⟨hp, hlt⟩
  · rw [hregroup] at heq
    refine h.rounded.even_of_natAbs_eq h.step_pos ?_ heq
    rintro rfl
    exact hne rfl
  · have hge := h.ge hp
    have hpower := h.rounded.natAbs_le (twoPow 52)
    have hbelow : v * d < twoPow 52 * (d * twoPow p) := by
      rw [← hregroup]
      exact Nat.mul_lt_mul_of_pos_right hlt h.denominator_pos
    rw [Nat.mul_comm (d * twoPow p)] at hge
    omega

/-- The rounded quotient is a finite double if and only if the quotient lies below the middle
between the greatest of these and the power of two after it. -/
theorem lt_overflow_iff :
    nearestUnits n d < overflowUnits ↔ 2 * n < (twoPow 54 - 1) * (d * twoPow 2045) := by
  have hoverflow : overflowUnits = twoPow 53 * twoPow 2045 := twoPow_add 53 2045
  have hlimit (step : Nat) : (twoPow 54 - 1) * step + step = 2 * (twoPow 53 * step) := by
    rw [← Nat.succ_mul, ← Nat.mul_assoc]
    rfl
  have hlimitStep := hlimit (d * twoPow 2045)
  have hstep := Nat.mul_pos h.denominator_pos (twoPow_pos 2045)
  rw [h.eq, hoverflow]
  rcases Nat.lt_trichotomy p 2045 with hlt | rfl | hgt
  · -- the grid is so fine that the rounded quotient and the quotient are both small
    have hsteps : 2 * (d * twoPow p) ≤ d * twoPow 2045 := by
      rw [Nat.mul_left_comm, ← twoPow_succ]
      exact Nat.mul_le_mul_left d (twoPow_le hlt)
    have hbound := Nat.mul_le_mul_left (twoPow 53) hsteps
    have hn := h.lt
    rw [Nat.mul_left_comm] at hbound
    rw [Nat.mul_comm] at hn
    have hgrown : d * twoPow 2045 ≤ twoPow 53 * (d * twoPow 2045) :=
      Nat.le_mul_of_pos_left _ (twoPow_pos 53)
    apply iff_of_true
    · exact Nat.mul_lt_mul_of_le_of_lt h.le_twoPow (twoPow_lt hlt) (twoPow_pos 53)
    · omega
  · have hle := h.rounded.le_add
    have hge := h.rounded.add_le
    have heven := h.rounded.even
    rw [Nat.mul_lt_mul_right (twoPow_pos 2045)]
    generalize d * twoPow 2045 = step at hstep hlimitStep hle hge heven ⊢
    constructor
    · intro hm
      rcases Nat.lt_or_ge (m + 1) (twoPow 53) with hless | hlast
      · have hmul : (m + 2) * step ≤ twoPow 53 * step := Nat.mul_le_mul_right step hless
        rw [Nat.add_mul] at hmul
        omega
      · -- the last magnitude has an odd significand, so no tie is rounded to it
        have hnext : m + 1 = twoPow 53 := Nat.le_antisymm hm hlast
        have hlastMul : (m + 1) * step = twoPow 53 * step := by rw [hnext]
        have hodd : (m + 1) % 2 = 0 := by
          rw [hnext]
          decide
        have hstrict : 2 * n ≠ 2 * (m * step) + step := by
          intro htie
          have hmEven := heven (Or.inr htie)
          omega
        rw [Nat.add_mul] at hlastMul
        omega
    · intro hn
      apply Nat.lt_of_mul_lt_mul_right (a := step)
      omega
  · -- the grid is so coarse that the rounded quotient and the quotient are both large
    have hpos : 0 < p := by omega
    have hsteps : 2 * (d * twoPow 2045) ≤ d * twoPow p := by
      rw [Nat.mul_left_comm, ← twoPow_succ]
      exact Nat.mul_le_mul_left d (twoPow_le hgt)
    have hbound := Nat.mul_le_mul_left (twoPow 52) hsteps
    have hn := h.ge hpos
    have hdouble : twoPow 53 = 2 * twoPow 52 := twoPow_succ 52
    rw [Nat.mul_left_comm, ← Nat.mul_assoc, ← hdouble] at hbound
    rw [Nat.mul_comm] at hn
    apply iff_of_false
    · rw [Nat.not_lt, twoPow_carry]
      exact Nat.mul_le_mul (h.twoPow_le_of_pos hpos) (twoPow_le hgt)
    · omega

end RoundsTo

/-- A quotient whose double drops no more than some places is off by half their step at most. -/
theorem natAbs_sub_nearestUnits_le {n d places : Nat} (hd : 0 < d)
    (h : n < d * twoPow (places + 53)) :
    2 * ((n : Int) - (nearestUnits n d * d : Nat)).natAbs ≤ d * twoPow places := by
  obtain ⟨m, hrounds⟩ := exists_roundsTo n hd
  have hstep := Nat.mul_le_mul_left d (twoPow_le ((droppedPlaces_le_iff hd).mpr h))
  have hregroup : m * twoPow (droppedPlaces n d) * d = m * (d * twoPow (droppedPlaces n d)) := by
    ac_rfl
  have hle := hrounds.rounded.le_add
  have hge := hrounds.rounded.add_le
  rw [hrounds.eq, hregroup]
  omega

end Binary64
end CandleHistory.Number
