import CandleHistory.Proofs.ReadBackInterval
import CandleHistory.Proofs.ScientificValues
import Mathlib.Data.Rat.Floor

/-!
The shortest digits of a double. A magnitude is read back from every number of an interval, and the
grids of powers of ten are searched from coarse to fine for a number of it. A grid has one if and
only if one of the two neighbours of the magnitude on the grid is in the interval, so the digits
that are found read back and no coarser grid has any that do. Seventeen digits are always found. If
the magnitude is not too small, the interval is so short that a grid of fifteen digits has no more
than one number in it; a number of fifteen digits that is rounded to the magnitude is therefore the
one that is found.
-/

namespace CandleHistory.Number.Binary64

/-- The number that some units make up. -/
def magnitude (units : Nat) : ℚ := units / unitsPerOne

theorem cast_unitsPerOne_pos : (0 : ℚ) < unitsPerOne := Nat.cast_pos.mpr unitsPerOne_pos

theorem magnitude_mul (units : Nat) : magnitude units * unitsPerOne = units :=
  div_mul_cancel₀ _ cast_unitsPerOne_pos.ne'

namespace ReadBack

variable {interval : ReadBack}

/-- Whether a number lies in the interval. -/
def Spans (interval : ReadBack) (q : ℚ) : Prop :=
  if interval.closed then
    interval.low ≤ q * interval.denominator ∧ q * interval.denominator ≤ interval.high
  else interval.low < q * interval.denominator ∧ q * interval.denominator < interval.high

/-- An interval contains what lies between two of its numbers. -/
theorem Spans.between {q r s : ℚ} (hq : interval.Spans q) (hs : interval.Spans s) (hqr : q ≤ r)
    (hrs : r ≤ s) : interval.Spans r := by
  have hlow : q * interval.denominator ≤ r * interval.denominator :=
    mul_le_mul_of_nonneg_right hqr (Nat.cast_nonneg _)
  have hhigh : r * interval.denominator ≤ s * interval.denominator :=
    mul_le_mul_of_nonneg_right hrs (Nat.cast_nonneg _)
  unfold Spans at *
  split at hq
  case isTrue hclosed =>
    rw [if_pos hclosed] at hs ⊢
    exact ⟨hq.1.trans hlow, hhigh.trans hs.2⟩
  case isFalse hopen =>
    rw [if_neg hopen] at hs ⊢
    exact ⟨hq.1.trans_le hlow, hhigh.trans_lt hs.2⟩

theorem spans_div_iff {n d : Nat} (hd : 0 < d) : interval.Spans (n / d) ↔
    if interval.closed then
      interval.low * d ≤ n * interval.denominator ∧ n * interval.denominator ≤ interval.high * d
    else
      interval.low * d < n * interval.denominator ∧
        n * interval.denominator < interval.high * d := by
  have hpos : (0 : ℚ) < d := Nat.cast_pos.mpr hd
  unfold Spans
  rw [div_mul_eq_mul_div, le_div_iff₀ hpos, div_le_iff₀ hpos, lt_div_iff₀ hpos, div_lt_iff₀ hpos]
  norm_cast

theorem holds_iff {digits : Nat} {exponent : Int} :
    interval.holds digits exponent = true ↔ interval.Spans (scientific digits exponent) := by
  rw [scientific_eq_div, spans_div_iff (tenPow_pos _)]
  unfold holds
  dsimp only
  split <;> rw [Bool.and_eq_true, decide_eq_true_iff, decide_eq_true_iff]

/-- The number in the middle of the interval. -/
def middle (interval : ReadBack) : ℚ := interval.value / interval.denominator

theorem middle_div_zpow (interval : ReadBack) (exponent : Int) :
    interval.middle / 10 ^ exponent =
      (interval.value * tenPow (-exponent).toNat : Nat) /
        (interval.denominator * tenPow exponent.toNat : Nat) := by
  rw [middle, ten_zpow_eq_div, div_div_div_eq, Nat.cast_mul, Nat.cast_mul]

/-- What a grid tells: a number of it that lies in the interval, or that there is none. -/
theorem spans_of_onGrid? {exponent : Int} {digits : Nat}
    (h : interval.onGrid? exponent = some digits) :
    interval.Spans (scientific digits exponent) := by
  unfold onGrid? at h
  dsimp only at h
  split at h
  case h_1 hbelow habove =>
    obtain rfl := Option.some.inj h
    rcases roundHalfEven_eq_or (interval.value * tenPow (-exponent).toNat)
      (interval.denominator * tenPow exponent.toNat) with hlow | hhigh
    · rw [hlow]
      exact holds_iff.mp hbelow
    · rw [hhigh]
      exact holds_iff.mp habove
  case h_2 hbelow _ =>
    obtain rfl := Option.some.inj h
    exact holds_iff.mp hbelow
  case h_3 _ habove =>
    obtain rfl := Option.some.inj h
    exact holds_iff.mp habove
  case h_4 => cases h

theorem not_spans_of_onGrid? (hmiddle : interval.Spans interval.middle)
    (hdenominator : 0 < interval.denominator) {exponent : Int}
    (h : interval.onGrid? exponent = none) (digits : Nat) :
    ¬ interval.Spans (scientific digits exponent) := by
  intro hspans
  have hzpow : (0 : ℚ) < 10 ^ exponent := by positivity
  have hd : 0 < interval.denominator * tenPow exponent.toNat :=
    Nat.mul_pos hdenominator (tenPow_pos _)
  have hquotient := interval.middle_div_zpow exponent
  have hfloor := Nat.div_add_mod (interval.value * tenPow (-exponent).toNat)
    (interval.denominator * tenPow exponent.toNat)
  have hrest := Nat.mod_lt (interval.value * tenPow (-exponent).toNat) hd
  unfold onGrid? at h
  dsimp only at h
  generalize interval.value * tenPow (-exponent).toNat = n at *
  generalize interval.denominator * tenPow exponent.toNat = d at *
  have hdCast : (0 : ℚ) < d := Nat.cast_pos.mpr hd
  have hbelow : scientific (n / d) exponent ≤ interval.middle := by
    rw [scientific, ← le_div_iff₀ hzpow, hquotient, le_div_iff₀ hdCast, ← Nat.cast_mul,
      Nat.cast_le]
    exact Nat.div_mul_le_self n d
  have habove : interval.middle ≤ scientific (n / d + 1) exponent := by
    rw [scientific, ← div_le_iff₀ hzpow, hquotient, div_le_iff₀ hdCast, ← Nat.cast_mul,
      Nat.cast_le, Nat.add_mul, Nat.mul_comm (n / d) d]
    omega
  -- the neighbour on the side of the number lies between it and the middle
  rcases Nat.lt_or_ge (n / d) digits with hlt | hge
  · have hle : scientific (n / d + 1) exponent ≤ scientific digits exponent := by
      unfold scientific
      gcongr
      exact hlt
    have hholds := holds_iff.mpr (hmiddle.between hspans habove hle)
    rw [hholds] at h
    split at h <;> simp_all
  · have hle : scientific digits exponent ≤ scientific (n / d) exponent := by
      unfold scientific
      gcongr
    have hholds := holds_iff.mpr (hspans.between hmiddle hle hbelow)
    rw [hholds] at h
    split at h <;> simp_all

/-- A number of the interval on the coarsest grid, of those up to `10 ^ top`, that has any. -/
structure IsShortest (interval : ReadBack) (top : Int) (digits : Nat) (exponent : Int) : Prop where
  spans : interval.Spans (scientific digits exponent)
  le_top : exponent ≤ top
  not_spans : ∀ coarser, exponent < coarser → coarser ≤ top →
    ∀ j, ¬ interval.Spans (scientific j coarser)

/-- The search finds such a number if one of the grids that it tries has one. -/
theorem isShortest_search (hmiddle : interval.Spans interval.middle)
    (hdenominator : 0 < interval.denominator) {tries : Nat} {top fine : Int} {j : Nat}
    (hfine : top - tries < fine) (htop : fine ≤ top) (hspans : interval.Spans (scientific j fine)) :
    interval.IsShortest top (interval.search tries top).1 (interval.search tries top).2 := by
  induction tries generalizing top with
  | zero => omega
  | succ tries ih =>
      rw [search]
      split
      case h_1 digits hgrid =>
        exact ⟨spans_of_onGrid? hgrid, Int.le_refl _, fun coarser hlt hle => by omega⟩
      case h_2 hgrid =>
        have hnone := not_spans_of_onGrid? hmiddle hdenominator hgrid
        have hne : fine ≠ top := by
          rintro rfl
          exact hnone j hspans
        have hbelow : top - 1 - tries < fine := by omega
        have hrest := ih hbelow (by omega)
        refine ⟨hrest.spans, by have := hrest.le_top; omega, fun coarser hlt hle => ?_⟩
        by_cases hlast : coarser = top
        · rw [hlast]
          exact hnone
        · exact hrest.not_spans coarser hlt (by omega)

end ReadBack

/-- The position of the decimal point tells between which powers of ten a quotient lies. -/
theorem zpow_decimalPoint_le {n d : Nat} (hn : 0 < n) (hd : 0 < d) :
    (10 : ℚ) ^ (decimalPoint n d - 1) ≤ n / d ∧ (n / d : ℚ) < 10 ^ decimalPoint n d := by
  have hnCast : (0 : ℚ) < n := Nat.cast_pos.mpr hn
  have hdCast : (0 : ℚ) < d := Nat.cast_pos.mpr hd
  unfold decimalPoint
  split
  case isTrue hle =>
    have hfloor : n / d ≠ 0 := (Nat.div_pos hle hd).ne'
    have hlow := tenPow_le_of_digitCount hfloor
    have hhigh := lt_tenPow_digitCount (n / d)
    have hcount := digitCount_pos (n / d)
    generalize Text.digitCount (n / d) = k at *
    have hexponent : (k : Int) - 1 = (k - 1 : Nat) := by omega
    rw [hexponent, ← cast_tenPow, ← cast_tenPow, le_div_iff₀ hdCast, div_lt_iff₀ hdCast]
    constructor
    · exact_mod_cast (Nat.le_div_iff_mul_le hd).mp hlow
    · exact_mod_cast (Nat.div_lt_iff_lt_mul hd).mp hhigh
  case isFalse hlt =>
    have hfloor : (d - 1) / n ≠ 0 := (Nat.div_pos (by omega) hn).ne'
    have hlow := tenPow_le_of_digitCount hfloor
    have hhigh := lt_tenPow_digitCount ((d - 1) / n)
    have hcount := digitCount_pos ((d - 1) / n)
    generalize Text.digitCount ((d - 1) / n) = k at *
    have hfirst : (1 - (k : Int) - 1) = -(k : Nat) := by omega
    have hlast : 1 - (k : Int) = -(k - 1 : Nat) := by omega
    have hpos (j : Nat) : (0 : ℚ) < tenPow j := Nat.cast_pos.mpr (tenPow_pos j)
    rw [hfirst, hlast, zpow_neg, zpow_neg, ← cast_tenPow, ← cast_tenPow,
      inv_le_iff_one_le_mul₀ (hpos k), lt_inv_comm₀ (by positivity) (hpos _), inv_div,
      div_mul_eq_mul_div, one_le_div hdCast, lt_div_iff₀ hnCast]
    have hhighMul := (Nat.div_lt_iff_lt_mul hn).mp hhigh
    have hlowMul := (Nat.le_div_iff_mul_le hn).mp hlow
    constructor
    · norm_cast
      rw [Nat.mul_comm]
      omega
    · norm_cast
      omega

section Interval

variable {units : Nat} {q r : ℚ}

/-- The bounds of an interval: half a step above the magnitude, and below it half a step, or a
quarter of one at the start of a binade. -/
theorem exists_bounds_readBack (hunits : OnGrid units) (hpos : 0 < units) :
    ∃ below, (readBack units).low + below = 4 * units ∧
      (below = 2 * twoPow (droppedPlaces units 1) ∨
        below = twoPow (droppedPlaces units 1) ∧
          units = twoPow 52 * twoPow (droppedPlaces units 1)) := by
  have hstep : twoPow (droppedPlaces units 1) ≤ units :=
    Nat.le_of_dvd hpos (onGrid_iff_dvd.mp hunits)
  unfold readBack
  dsimp only
  split
  case isTrue hstart => exact ⟨twoPow (droppedPlaces units 1), by omega, Or.inr ⟨rfl, hstart.1⟩⟩
  case isFalse => exact ⟨2 * twoPow (droppedPlaces units 1), by omega, Or.inl rfl⟩

theorem high_readBack_eq (units : Nat) :
    (readBack units).high = 4 * units + 2 * twoPow (droppedPlaces units 1) := rfl

theorem denominator_readBack_eq (units : Nat) :
    (readBack units).denominator = 4 * unitsPerOne := rfl

theorem abs_mul_sub_eq (units : Nat) (q : ℚ) :
    |q * unitsPerOne - units| = |q - magnitude units| * unitsPerOne := by
  rw [← magnitude_mul units, ← sub_mul, abs_mul, abs_of_pos cast_unitsPerOne_pos]

theorem middle_readBack (units : Nat) : (readBack units).middle = magnitude units := by
  have hvalue : (readBack units).value = 4 * units := rfl
  rw [ReadBack.middle, hvalue, denominator_readBack_eq, magnitude, Nat.cast_mul, Nat.cast_mul]
  exact mul_div_mul_left _ _ (by positivity)

/-- A number that is very near to a magnitude, relatively to it, is in the interval. -/
theorem spans_of_near (hunits : OnGrid units) (hpos : 0 < units)
    (h : |q - magnitude units| * (2 * 10 ^ 16) ≤ magnitude units) : (readBack units).Spans q := by
  have hnear : |q * unitsPerOne - units| * (2 * 10 ^ 16) ≤ units := by
    rw [abs_mul_sub_eq, mul_right_comm]
    calc |q - magnitude units| * (2 * 10 ^ 16) * unitsPerOne ≤ magnitude units * unitsPerOne :=
          mul_le_mul_of_nonneg_right h cast_unitsPerOne_pos.le
      _ = units := magnitude_mul units
  obtain ⟨below, hlow, hbelow⟩ := exists_bounds_readBack hunits hpos
  have hhigh := high_readBack_eq units
  have hlarge : units < twoPow 53 * twoPow (droppedPlaces units 1) :=
    droppedPlaces_whole_le_iff.mp (Nat.le_refl _)
  have hstepPos := twoPow_pos (droppedPlaces units 1)
  generalize twoPow (droppedPlaces units 1) = step at *
  have hlowCast : ((readBack units).low : ℚ) = 4 * units - below := by
    rw [eq_sub_iff_add_eq]
    exact_mod_cast hlow
  have hhighCast : ((readBack units).high : ℚ) = 4 * units + 2 * step := by exact_mod_cast hhigh
  have hlargeCast : (units : ℚ) < 2 ^ 53 * step := by
    have hpower : (twoPow 53 : ℚ) = 2 ^ 53 := Nat.cast_pow 2 53
    rw [← hpower]
    exact_mod_cast hlarge
  have hstepCast : (0 : ℚ) < step := Nat.cast_pos.mpr hstepPos
  have hfar : 4 * |q * unitsPerOne - units| < below ∧ 4 * |q * unitsPerOne - units| < 2 * step := by
    rcases hbelow with rfl | ⟨rfl, hstart⟩
    · push_cast
      constructor <;> linarith
    · have hpower : (twoPow 52 : ℚ) = 2 ^ 52 := Nat.cast_pow 2 52
      have hstartCast : (units : ℚ) = 2 ^ 52 * below := by
        rw [← hpower]
        exact_mod_cast hstart
      constructor <;> linarith
  have habove := le_abs_self (q * unitsPerOne - units)
  have hunder := neg_abs_le (q * unitsPerOne - units)
  unfold ReadBack.Spans
  rw [hlowCast, hhighCast, denominator_readBack_eq]
  push_cast
  split
  case isTrue => constructor <;> linarith
  case isFalse => constructor <;> linarith

/-- The interval of a magnitude that is not too small is short, relatively to the magnitude. -/
theorem ReadBack.Spans.distance_le (hunits : OnGrid units) (hlarge : twoPow 52 ≤ units)
    (h : (readBack units).Spans q) : |q - magnitude units| * 2 ^ 53 ≤ magnitude units := by
  have hpos : 0 < units := Nat.lt_of_lt_of_le (twoPow_pos 52) hlarge
  obtain ⟨below, hlow, hbelow⟩ := exists_bounds_readBack hunits hpos
  have hhigh := high_readBack_eq units
  have hgrid : twoPow 52 * twoPow (droppedPlaces units 1) ≤ units := by
    rcases Nat.eq_zero_or_pos (droppedPlaces units 1) with hzero | hplaces
    · rw [hzero]
      exact hlarge
    · have hmul := Nat.mul_le_mul_right (twoPow (droppedPlaces units 1)) (hunits.fits.ge hplaces)
      rwa [significand_mul_twoPow hunits] at hmul
  generalize twoPow (droppedPlaces units 1) = step at *
  have hlowCast : ((readBack units).low : ℚ) = 4 * units - below := by
    rw [eq_sub_iff_add_eq]
    exact_mod_cast hlow
  have hhighCast : ((readBack units).high : ℚ) = 4 * units + 2 * step := by exact_mod_cast hhigh
  have hgridCast : (2 ^ 52 * step : ℚ) ≤ units := by
    have hpower : (twoPow 52 : ℚ) = 2 ^ 52 := Nat.cast_pow 2 52
    rw [← hpower]
    exact_mod_cast hgrid
  have hbelowCast : (below : ℚ) ≤ 2 * step := by
    have hle : below ≤ 2 * step := by omega
    exact_mod_cast hle
  have hbounds : ((readBack units).low : ℚ) ≤ q * (4 * unitsPerOne : Nat) ∧
      q * (4 * unitsPerOne : Nat) ≤ (readBack units).high := by
    unfold ReadBack.Spans at h
    rw [denominator_readBack_eq] at h
    split at h
    case isTrue => exact h
    case isFalse => exact ⟨h.1.le, h.2.le⟩
  rw [hlowCast, hhighCast] at hbounds
  push_cast at hbounds
  obtain ⟨hfirst, hlast⟩ := hbounds
  have habs : |q * unitsPerOne - units| ≤ step / 2 := by
    rw [abs_le]
    constructor <;> linarith
  rw [abs_mul_sub_eq] at habs
  refine le_of_mul_le_mul_right ?_ cast_unitsPerOne_pos
  rw [magnitude_mul, mul_right_comm]
  linarith

/-- The quotients that are rounded to a magnitude are the numbers of its interval. -/
theorem nearestUnits_eq_iff_spans {n d : Nat} (hunits : OnGrid units) (hpos : 0 < units)
    (hd : 0 < d) (hq : q * unitsPerOne = n / d) :
    nearestUnits n d = units ↔ (readBack units).Spans q := by
  have hdCast : (0 : ℚ) < d := Nat.cast_pos.mpr hd
  have hscaled : q * (4 * unitsPerOne : Nat) = (4 * n : Nat) / d := by
    push_cast
    rw [mul_left_comm, hq, mul_div_assoc]
  rw [nearestUnits_eq_iff hunits hpos hd]
  unfold ReadBack.Contains ReadBack.Spans
  rw [denominator_readBack_eq, hscaled, le_div_iff₀ hdCast, div_le_iff₀ hdCast, lt_div_iff₀ hdCast,
    div_lt_iff₀ hdCast]
  norm_cast

theorem magnitude_pos (hpos : 0 < units) : 0 < magnitude units :=
  div_pos (Nat.cast_pos.mpr hpos) cast_unitsPerOne_pos

/-- The magnitude itself is in the interval. -/
theorem spans_magnitude (hunits : OnGrid units) (hpos : 0 < units) :
    (readBack units).Spans (magnitude units) := by
  apply spans_of_near hunits hpos
  rw [sub_self, abs_zero, zero_mul]
  exact (magnitude_pos hpos).le

/-- A number of every grid lies half a step away at most. -/
theorem exists_abs_scientific_sub_le (exponent : Int) (hq : 0 ≤ q) :
    ∃ digits, |scientific digits exponent - q| * 2 ≤ 10 ^ exponent := by
  have hzpow : (0 : ℚ) < 10 ^ exponent := by positivity
  have hquotient : q = q / 10 ^ exponent * 10 ^ exponent := (div_mul_cancel₀ q hzpow.ne').symm
  have hnonneg : 0 ≤ q / 10 ^ exponent := by positivity
  have hfloor := Nat.floor_le (a := q / 10 ^ exponent + 1 / 2) (by positivity)
  have hnext := Nat.lt_floor_add_one (q / 10 ^ exponent + 1 / 2)
  refine ⟨⌊q / 10 ^ exponent + 1 / 2⌋₊, ?_⟩
  generalize ⌊q / 10 ^ exponent + 1 / 2⌋₊ = digits at *
  generalize q / 10 ^ exponent = quotient at *
  have habs : |(digits : ℚ) - quotient| ≤ 1 / 2 := by
    rw [abs_le]
    constructor <;> linarith
  rw [hquotient, scientific, ← sub_mul, abs_mul, abs_of_pos hzpow]
  linarith [mul_le_mul_of_nonneg_right habs hzpow.le]

/-- Seventeen digits are enough. -/
theorem exists_spans_scientific (hunits : OnGrid units) (hpos : 0 < units) :
    ∃ digits, (readBack units).Spans
      (scientific digits (decimalPoint units unitsPerOne - 17)) := by
  have hpoint := (zpow_decimalPoint_le hpos unitsPerOne_pos).1
  change _ ≤ magnitude units at hpoint
  obtain ⟨digits, hdigits⟩ := exists_abs_scientific_sub_le (decimalPoint units unitsPerOne - 17)
    (magnitude_pos hpos).le
  refine ⟨digits, spans_of_near hunits hpos ?_⟩
  generalize decimalPoint units unitsPerOne = x at *
  have hexponent : x - 1 = x - 17 + 16 := by omega
  have hpower : (10 : ℚ) ^ (16 : Int) = 10 ^ 16 := by norm_cast
  rw [hexponent, zpow_add₀ (by norm_num), hpower] at hpoint
  linarith

/-- The digits of a magnitude read back, and no coarser grid has any that do. -/
theorem isShortest_shortest (hunits : OnGrid units) (hpos : 0 < units) :
    (readBack units).IsShortest (decimalPoint units unitsPerOne - 1) (shortest units).1
      (shortest units).2 := by
  obtain ⟨digits, hspans⟩ := exists_spans_scientific hunits hpos
  apply ReadBack.isShortest_search _ _ (by omega) (by omega) hspans
  · rw [middle_readBack]
    exact spans_magnitude hunits hpos
  · exact Nat.mul_pos (by decide) unitsPerOne_pos

theorem le_shortest_exponent (hunits : OnGrid units) (hpos : 0 < units) :
    decimalPoint units unitsPerOne - 17 ≤ (shortest units).2 := by
  obtain ⟨digits, hspans⟩ := exists_spans_scientific hunits hpos
  apply Int.le_of_not_gt
  intro hfine
  exact (isShortest_shortest hunits hpos).not_spans _ hfine (by omega) digits hspans

/-- Of a grid on which a magnitude has fifteen digits no two numbers are in the interval. -/
theorem eq_of_spans_scientific (hunits : OnGrid units) (hlarge : twoPow 52 ≤ units)
    {exponent : Int} (hpoint : magnitude units ≤ 10 ^ 15 * 10 ^ exponent) {j k : Nat}
    (hj : (readBack units).Spans (scientific j exponent))
    (hk : (readBack units).Spans (scientific k exponent)) : j = k := by
  have hzpow : (0 : ℚ) < 10 ^ exponent := by positivity
  have hjNear := hj.distance_le hunits hlarge
  have hkNear := hk.distance_le hunits hlarge
  have htriangle := abs_sub_le (scientific j exponent) (magnitude units) (scientific k exponent)
  rw [abs_sub_comm (magnitude units)] at htriangle
  have hdistance : |scientific j exponent - scientific k exponent| < 1 * 10 ^ exponent := by
    linarith
  rw [scientific, scientific, ← sub_mul, abs_mul, abs_of_pos hzpow,
    mul_lt_mul_iff_left₀ hzpow] at hdistance
  have hint : |(j : Int) - k| < 1 := by exact_mod_cast hdistance
  rw [Int.abs_lt_one_iff] at hint
  omega

/-- A number of fifteen digits that is rounded to a magnitude has the value of the digits of the
magnitude, unless the magnitude is too small. -/
theorem scientific_shortest_eq (hunits : OnGrid units) (hlarge : twoPow 52 ≤ units)
    {digits : Nat} {exponent : Int} (hdigits : digits < tenPow 15)
    (hspans : (readBack units).Spans (scientific digits exponent)) :
    scientific (shortest units).1 (shortest units).2 = scientific digits exponent := by
  have hpos : 0 < units := Nat.lt_of_lt_of_le (twoPow_pos 52) hlarge
  have hshortest := isShortest_shortest hunits hpos
  obtain ⟨hfirst, hpoint⟩ := zpow_decimalPoint_le hpos unitsPerOne_pos
  change _ ≤ magnitude units at hfirst
  change magnitude units < _ at hpoint
  generalize decimalPoint units unitsPerOne = x at hshortest hfirst hpoint
  have hpower : (10 : ℚ) ^ (15 : Int) = 10 ^ 15 := by norm_cast
  -- on a finer grid fifteen digits do not reach the magnitude
  have hexponent : x - 15 ≤ exponent := by
    apply Int.le_of_not_gt
    intro hfine
    have hnear := hspans.distance_le hunits hlarge
    have hbelow := neg_abs_le (scientific digits exponent - magnitude units)
    have hlast : x - 1 = x - 16 + 15 := by omega
    rw [hlast, zpow_add₀ (by norm_num), hpower] at hfirst
    have hgrid : (10 : ℚ) ^ exponent ≤ 10 ^ (x - 16) := zpow_le_zpow_right₀ (by norm_num) (by omega)
    have hcoefficient : (digits : ℚ) ≤ 10 ^ 15 - 1 := by
      rw [le_sub_iff_add_le]
      exact_mod_cast hdigits
    have hproduct : scientific digits exponent ≤ (10 ^ 15 - 1) * 10 ^ (x - 16) := by
      unfold scientific
      gcongr
    have hmagnitude := magnitude_pos hpos
    linarith
  have hcoarse : x - 15 ≤ (shortest units).2 := by
    apply Int.le_of_not_gt
    intro hfine
    rw [scientific_of_le hexponent] at hspans
    exact hshortest.not_spans (x - 15) hfine (by omega) _ hspans
  have hbound : magnitude units ≤ 10 ^ 15 * 10 ^ (x - 15) := by
    have hlast : x = x - 15 + 15 := by omega
    rw [hlast, zpow_add₀ (by norm_num), hpower] at hpoint
    linarith
  have hfound := hshortest.spans
  rw [scientific_of_le hexponent] at hspans ⊢
  rw [scientific_of_le hcoarse] at hfound ⊢
  rw [eq_of_spans_scientific hunits hlarge hbound hfound hspans]

end Interval

end CandleHistory.Number.Binary64
