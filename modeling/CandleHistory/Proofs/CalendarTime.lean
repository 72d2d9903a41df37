import CandleHistory.Calendar.Instant
import CandleHistory.Proofs.DoubleGrid
import CandleHistory.Proofs.Midnights
import Mathlib.Tactic.Ring

/-!
The instants of Unix milliseconds. Milliseconds pass through a double that counts seconds and
through another one that counts the microseconds of the last second. In the years 1 to 9999 the
first double is off by less than a thousandth of a second, and exact at whole seconds, so neither
rounding carries a time out of its second: an instant has the whole seconds of its milliseconds, and
a fraction exactly if these are no whole seconds. Up to 2^33 seconds from 1970 the error of both
roundings together is less than half a microsecond, so that the microseconds are exact as well.
-/

namespace CandleHistory.Calendar

open Number (Binary64 roundHalfEven twoPow)
open Number.Binary64 (unitsPerOne nearestUnits)

namespace Instant

theorem firstSecond_eq : firstSecond = -62135596800 := by decide

theorem endSecond_eq : endSecond = 253402300800 := by decide

/-- An instant in the calendar passes the check. -/
theorem check_eq_ok {t : Instant} (hfirst : firstSecond ≤ t.seconds)
    (hend : t.seconds < endSecond) : check t = .ok t := by
  have hsmall : ¬ twoPow 63 < t.seconds.natAbs := by
    have hpow : twoPow 63 = 9223372036854775808 := by decide
    rw [hpow]
    rw [firstSecond_eq] at hfirst
    rw [endSecond_eq] at hend
    omega
  have hnear : ¬ (t.seconds < -67768040609740800 ∨ 67768036191676799 < t.seconds) := by
    rw [firstSecond_eq] at hfirst
    rw [endSecond_eq] at hend
    omega
  have hinside : t.isInCalendar = true := by
    simp [isInCalendar, hfirst, hend]
  unfold check
  simp only [if_neg hsmall, if_neg hnear, hinside, if_true]

theorem unitsPerOne_eq_mul : unitsPerOne = 1024 * twoPow 1064 := by
  have hplaces : 1074 = 10 + 1064 := by decide
  have hten : twoPow 10 = 1024 := by decide
  rw [Binary64.unitsPerOne_eq, hplaces, Number.twoPow_add, hten]

section Seconds

variable {ms : Nat} (hms : ms < 1000 * 253402300800)

include hms

theorem twoPow_dvd_seconds :
    twoPow (Binary64.droppedPlaces (ms * unitsPerOne) 1000) ∣ twoPow 1064 := by
  apply Binary64.twoPow_droppedPlaces_dvd
  have hlog : Nat.log2 1000 = 9 := by decide
  have hplaces : 1064 + 53 + 9 = 52 + 1074 := by decide
  rw [hlog, hplaces, Number.twoPow_add, ← Binary64.unitsPerOne_eq]
  apply Nat.mul_lt_mul_of_pos_right _ Binary64.unitsPerOne_pos
  exact Nat.lt_trans hms (by decide)

/-- A double that counts seconds of the calendar keeps its numbers between those that the exact
quotient lies between, in steps of `2 ^ -10`. -/
theorem nearestUnits_seconds_between (low high : Nat)
    (hlow : low * twoPow 1064 * 1000 ≤ ms * unitsPerOne)
    (hhigh : ms * unitsPerOne ≤ high * twoPow 1064 * 1000) :
    low * twoPow 1064 ≤ nearestUnits (ms * unitsPerOne) 1000 ∧
      nearestUnits (ms * unitsPerOne) 1000 ≤ high * twoPow 1064 := by
  have hgrid (k : Nat) :
      twoPow (Binary64.droppedPlaces (ms * unitsPerOne) 1000) ∣ k * twoPow 1064 :=
    Nat.dvd_trans (twoPow_dvd_seconds hms) (Nat.dvd_mul_left _ _)
  exact ⟨Binary64.le_nearestUnits (by decide) (hgrid low) hlow,
    Binary64.nearestUnits_le (by decide) (hgrid high) hhigh⟩

/-- The double of some whole seconds is exact. -/
theorem nearestUnits_whole_seconds (hwhole : ms % 1000 = 0) :
    nearestUnits (ms * unitsPerOne) 1000 = ms / 1000 * unitsPerOne := by
  have hquotient : ms * unitsPerOne = ms / 1000 * unitsPerOne * 1000 := by
    rw [Nat.mul_right_comm, Nat.div_mul_cancel (Nat.dvd_of_mod_eq_zero hwhole)]
  have hpower : twoPow 52 = 4503599627370496 := by decide
  rw [hquotient]
  exact Binary64.nearestUnits_mul (by decide) (by omega)

/-- Otherwise the double lies inside the second, away from both its ends. -/
theorem nearestUnits_inside_second (hinside : ms % 1000 ≠ 0) :
    nearestUnits (ms * unitsPerOne) 1000 / unitsPerOne = ms / 1000 ∧
      twoPow 1064 ≤ nearestUnits (ms * unitsPerOne) 1000 % unitsPerOne ∧
      nearestUnits (ms * unitsPerOne) 1000 % unitsPerOne ≤ 1023 * twoPow 1064 := by
  have hdivision := Nat.div_add_mod ms 1000
  have hrest := Nat.mod_lt ms (by decide : 0 < 1000)
  have hbetween := nearestUnits_seconds_between hms
  have hstep := Number.twoPow_pos 1064
  rw [unitsPerOne_eq_mul] at hbetween ⊢
  generalize twoPow 1064 = step at hbetween hstep ⊢
  generalize nearestUnits (ms * (1024 * step)) 1000 = units at hbetween ⊢
  generalize ms / 1000 = whole at hdivision ⊢
  generalize ms % 1000 = rest at hdivision hrest hinside
  subst hdivision
  obtain ⟨hlow, hhigh⟩ := hbetween (1024 * whole + 1) (1024 * whole + 1023)
    (by
      calc (1024 * whole + 1) * step * 1000 = (1024000 * whole + 1000) * step := by ring
        _ ≤ (1024000 * whole + 1024 * rest) * step := Nat.mul_le_mul_right step (by omega)
        _ = (1000 * whole + rest) * (1024 * step) := by ring)
    (by
      calc (1000 * whole + rest) * (1024 * step) = (1024000 * whole + 1024 * rest) * step := by ring
        _ ≤ (1024000 * whole + 1023000) * step := Nat.mul_le_mul_right step (by omega)
        _ = (1024 * whole + 1023) * step * 1000 := by ring)
  have hlowEq : (1024 * whole + 1) * step = 1024 * step * whole + step := by ring
  have hhighEq : (1024 * whole + 1023) * step = 1024 * step * whole + 1023 * step := by ring
  obtain ⟨fraction, rfl⟩ : ∃ fraction, units = fraction + 1024 * step * whole :=
    ⟨units - 1024 * step * whole, by omega⟩
  obtain ⟨hquotient, hfraction⟩ := (Nat.div_mod_unique (a := fraction + 1024 * step * whole)
    (d := whole) (c := fraction) (by omega : 0 < 1024 * step)).mpr ⟨rfl, by omega⟩
  rw [hquotient, hfraction]
  omega

end Seconds

/-- The units of a number of microseconds, from the units of the fraction of a second. -/
def microUnits (fraction : Nat) : Nat :=
  nearestUnits (fraction * (1000000 * unitsPerOne)) unitsPerOne

section Fraction

variable {fraction : Nat} (hfraction : fraction < unitsPerOne)

include hfraction

theorem twoPow_dvd_micros : twoPow (Binary64.droppedPlaces (fraction * (1000000 * unitsPerOne))
    unitsPerOne) ∣ twoPow 1064 := by
  apply Binary64.twoPow_droppedPlaces_dvd
  rw [Binary64.unitsPerOne_log2, Number.twoPow_add, ← Binary64.unitsPerOne_eq]
  have hpower : 1000000 * unitsPerOne ≤ twoPow (1064 + 53) := by
    have hplaces : 1064 + 53 = 43 + 1074 := by decide
    rw [hplaces, Number.twoPow_add, ← Binary64.unitsPerOne_eq]
    exact Nat.mul_le_mul_right _ (by decide)
  rw [Nat.mul_comm]
  exact Nat.mul_lt_mul_of_le_of_lt hpower hfraction (Number.twoPow_pos _)

/-- The microseconds stay between the numbers that the scaled fraction lies between, in steps of
`2 ^ -10`. -/
theorem microUnits_between (low high : Nat) (hlow : low * twoPow 1064 ≤ fraction * 1000000)
    (hhigh : fraction * 1000000 ≤ high * twoPow 1064) :
    low * twoPow 1064 ≤ microUnits fraction ∧ microUnits fraction ≤ high * twoPow 1064 := by
  have hgrid (k : Nat) : twoPow (Binary64.droppedPlaces (fraction * (1000000 * unitsPerOne))
      unitsPerOne) ∣ k * twoPow 1064 :=
    Nat.dvd_trans (twoPow_dvd_micros hfraction) (Nat.dvd_mul_left _ _)
  constructor
  · apply Binary64.le_nearestUnits Binary64.unitsPerOne_pos (hgrid low)
    rw [← Nat.mul_assoc]
    exact Nat.mul_le_mul_right _ hlow
  · apply Binary64.nearestUnits_le Binary64.unitsPerOne_pos (hgrid high)
    rw [← Nat.mul_assoc]
    exact Nat.mul_le_mul_right _ hhigh

/-- The fraction of a second is read as its microseconds, rounded once more. -/
theorem round_micros : (Binary64.finite false fraction * Binary64.ofInt 1000000).round? =
    some (roundHalfEven (microUnits fraction) unitsPerOne : Int) := by
  have hmillion : Binary64.ofInt 1000000 = .finite false (1000000 * unitsPerOne) :=
    Binary64.ofInt_natCast (k := 1000000) (by decide)
  have hmost : microUnits fraction ≤ 1000000 * unitsPerOne := by
    have hbound : fraction * 1000000 ≤ 1024000000 * twoPow 1064 := by
      rw [unitsPerOne_eq_mul] at hfraction
      omega
    have hlow : 0 * twoPow 1064 ≤ fraction * 1000000 := by
      rw [Nat.zero_mul]
      exact Nat.zero_le _
    have hunits := (microUnits_between hfraction 0 1024000000 hlow hbound).2
    rw [unitsPerOne_eq_mul]
    omega
  rw [hmillion, Binary64.finite_mul, ← Binary64.round_finite]
  exact congrArg Binary64.round? (Binary64.ofUnits_eq_finite hmost (by decide))

/-- A fraction of a second that stays away from both ends of the second has microseconds that do. -/
theorem micros_inside (hlow : twoPow 1064 ≤ fraction) (hhigh : fraction ≤ 1023 * twoPow 1064) :
    0 < roundHalfEven (microUnits fraction) unitsPerOne ∧
      roundHalfEven (microUnits fraction) unitsPerOne < 1000000 := by
  obtain ⟨hlowUnits, hhighUnits⟩ := microUnits_between hfraction 1000000 1023000000
    (by omega) (by omega)
  have hatLeast : 976 ≤ roundHalfEven (microUnits fraction) unitsPerOne := by
    apply Number.le_roundHalfEven Binary64.unitsPerOne_pos
    rw [unitsPerOne_eq_mul]
    omega
  have hatMost : roundHalfEven (microUnits fraction) unitsPerOne ≤ 999024 := by
    apply Number.roundHalfEven_le Binary64.unitsPerOne_pos
    rw [unitsPerOne_eq_mul]
    omega
  omega

end Fraction

theorem micros_zero : roundHalfEven (microUnits 0) unitsPerOne = 0 := by
  have hunits := (microUnits_between Binary64.unitsPerOne_pos 0 0
    (Nat.le_of_eq (Nat.zero_mul _)) (Nat.zero_le _)).2
  rw [Nat.zero_mul] at hunits
  apply Nat.le_zero.mp
  apply Number.roundHalfEven_le Binary64.unitsPerOne_pos
  rwa [Nat.zero_mul]

/-- Up to 2^33 seconds, a double that counts seconds is off by 2^-21 seconds at most. -/
theorem nearestUnits_seconds_near {ms : Nat} (hms : ms < twoPow 33 * 1000) :
    2000 * nearestUnits (ms * unitsPerOne) 1000 ≤ 2 * (ms * unitsPerOne) + 1000 * twoPow 1054 ∧
      2 * (ms * unitsPerOne) ≤
        2000 * nearestUnits (ms * unitsPerOne) 1000 + 1000 * twoPow 1054 := by
  have hlt : ms * unitsPerOne < 1000 * twoPow (1054 + 53) := by
    have hplaces : 1054 + 53 = 33 + 1074 := by decide
    rw [hplaces, Number.twoPow_add, ← Binary64.unitsPerOne_eq, Nat.mul_left_comm, ← Nat.mul_assoc]
    exact Nat.mul_lt_mul_of_pos_right hms Binary64.unitsPerOne_pos
  have hnear := Binary64.natAbs_sub_nearestUnits_le (by decide) hlt
  generalize nearestUnits (ms * unitsPerOne) 1000 = units at hnear ⊢
  generalize twoPow 1054 = finest at hnear ⊢
  generalize ms * unitsPerOne = quotient at hnear ⊢
  omega

/-- So is the fraction of the last second. -/
theorem fraction_near {ms : Nat} (hms : ms < twoPow 33 * 1000)
    (hquotient : nearestUnits (ms * unitsPerOne) 1000 / unitsPerOne = ms / 1000) :
    2000 * (nearestUnits (ms * unitsPerOne) 1000 % unitsPerOne) ≤
        2 * (ms % 1000 * unitsPerOne) + 1000 * twoPow 1054 ∧
      2 * (ms % 1000 * unitsPerOne) ≤
        2000 * (nearestUnits (ms * unitsPerOne) 1000 % unitsPerOne) + 1000 * twoPow 1054 := by
  have hnear := nearestUnits_seconds_near hms
  have hdivision := Nat.div_add_mod (nearestUnits (ms * unitsPerOne) 1000) unitsPerOne
  rw [hquotient] at hdivision
  have hsplit (one : Nat) : ms * one = 1000 * (one * (ms / 1000)) + ms % 1000 * one := by
    calc ms * one = (1000 * (ms / 1000) + ms % 1000) * one := by rw [Nat.div_add_mod]
      _ = 1000 * (one * (ms / 1000)) + ms % 1000 * one := by ring
  generalize nearestUnits (ms * unitsPerOne) 1000 = units at hnear hdivision ⊢
  generalize twoPow 1054 = finest at hnear ⊢
  rw [hsplit] at hnear
  generalize unitsPerOne = one at hnear hdivision ⊢
  omega

/-- Up to 2^33 seconds, the microseconds are those of the milliseconds. -/
theorem micros_exact {ms : Nat} (hms : ms < twoPow 33 * 1000) :
    roundHalfEven (microUnits (nearestUnits (ms * unitsPerOne) 1000 % unitsPerOne)) unitsPerOne =
      1000 * (ms % 1000) := by
  have hcalendar : ms < 1000 * 253402300800 := Nat.lt_trans hms (by decide)
  by_cases hwhole : ms % 1000 = 0
  · rw [nearestUnits_whole_seconds hcalendar hwhole, Nat.mul_mod_left, hwhole, micros_zero]
  · obtain ⟨hquotient, -, -⟩ := nearestUnits_inside_second hcalendar hwhole
    obtain ⟨hle, hge⟩ := fraction_near hms hquotient
    have hfraction := Nat.mod_lt (nearestUnits (ms * unitsPerOne) 1000) Binary64.unitsPerOne_pos
    generalize nearestUnits (ms * unitsPerOne) 1000 % unitsPerOne = fraction at hle hge hfraction ⊢
    generalize ms % 1000 = rest at hwhole hle hge ⊢
    have hbetween := microUnits_between hfraction (1024000 * rest - 489) (1024000 * rest + 489)
    have hstep : twoPow 1064 = 1024 * twoPow 1054 := by
      have hplaces : 1064 = 10 + 1054 := by decide
      have hten : twoPow 10 = 1024 := by decide
      rw [hplaces, Number.twoPow_add, hten]
    have hone : unitsPerOne = 1048576 * twoPow 1054 := by
      rw [unitsPerOne_eq_mul, hstep, ← Nat.mul_assoc]
    have hpos := Binary64.unitsPerOne_pos
    apply Number.IsRounded.eq hpos
    generalize microUnits fraction = micros at hbetween ⊢
    rw [hone] at hle hge hpos ⊢
    rw [hstep] at hbetween
    generalize twoPow 1054 = finest at hle hge hbetween hpos ⊢
    have hlow : (1024000 * rest - 489) * (1024 * finest) + 500736 * finest =
        1048576000 * (rest * finest) := by
      obtain ⟨before, rfl⟩ : ∃ before, rest = before + 1 := ⟨rest - 1, by omega⟩
      have hless : 1024000 * (before + 1) - 489 = 1024000 * before + 1023511 := by omega
      rw [hless]
      ring
    have hhigh : (1024000 * rest + 489) * (1024 * finest) =
        1048576000 * (rest * finest) + 500736 * finest := by ring
    have hrest : rest * (1048576 * finest) = 1048576 * (rest * finest) := by ring
    have hmicros : 1000 * rest * (1048576 * finest) = 1048576000 * (rest * finest) := by ring
    rw [hrest] at hle hge
    obtain ⟨hmicrosLow, hmicrosHigh⟩ := hbetween (by omega) (by omega)
    constructor
    · omega
    · omega
    · omega

/-- The microseconds that some milliseconds leave after their whole seconds. -/
def millisMicros (ms : Nat) : Nat :=
  roundHalfEven (microUnits (nearestUnits (ms * unitsPerOne) 1000 % unitsPerOne)) unitsPerOne

section Millis

variable {ms : Nat} (hms : ms < 1000 * 253402300800)

include hms

/-- Neither rounding carries the milliseconds of the calendar out of their second. -/
theorem millisMicros_spec : nearestUnits (ms * unitsPerOne) 1000 / unitsPerOne = ms / 1000 ∧
    millisMicros ms < 1000000 ∧ (millisMicros ms = 0 ↔ ms % 1000 = 0) := by
  unfold millisMicros
  by_cases hwhole : ms % 1000 = 0
  · rw [nearestUnits_whole_seconds hms hwhole, Nat.mul_mod_left, micros_zero,
      Nat.mul_div_cancel _ Binary64.unitsPerOne_pos]
    exact ⟨rfl, by decide, iff_of_true rfl hwhole⟩
  · obtain ⟨hquotient, hlow, hhigh⟩ := nearestUnits_inside_second hms hwhole
    obtain ⟨hpos, hlt⟩ := micros_inside (Nat.mod_lt _ Binary64.unitsPerOne_pos) hlow hhigh
    exact ⟨hquotient, hlt, iff_of_false hpos.ne' hwhole⟩

theorem ofUnits_seconds (negative : Bool) : Binary64.ofUnits negative (ms * unitsPerOne) 1000 =
    .finite negative (nearestUnits (ms * unitsPerOne) 1000) := by
  have hunits : nearestUnits (ms * unitsPerOne) 1000 ≤ 253402300800 * unitsPerOne := by
    have hlt := (Nat.div_lt_iff_lt_mul Binary64.unitsPerOne_pos).mp
      (Nat.lt_of_le_of_lt (Nat.le_of_eq (millisMicros_spec hms).1)
        (Nat.div_lt_of_lt_mul hms))
    exact Nat.le_of_lt hlt
  exact Binary64.ofUnits_eq_finite hunits (by decide)

end Millis

/-- The instant of some milliseconds, if its seconds pass the check. -/
theorem ofMillis_eq_check {ms : Int} (hms : ms.natAbs < 1000 * 253402300800) :
    ofMillis ms = check ⟨if ms < 0 then
        -((ms.natAbs / 1000 : Nat) * 1000000 + (millisMicros ms.natAbs : Nat))
      else (ms.natAbs / 1000 : Nat) * 1000000 + (millisMicros ms.natAbs : Nat)⟩ := by
  have hmicros := round_micros
    (Nat.mod_lt (nearestUnits (ms.natAbs * unitsPerOne) 1000) Binary64.unitsPerOne_pos)
  unfold ofMillis Binary64.ofIntRatio Binary64.ofRatio
  rw [ofUnits_seconds hms, ofSeconds, hmicros, (millisMicros_spec hms).1, ofWholeSeconds]
  simp only [decide_eq_true_eq, millisMicros]

/-- Unix milliseconds of the years 1 to 9999 are an instant of the second that they lie in. It has a
fraction exactly if they are no whole seconds, and up to 2^33 seconds from 1970 this is their own.
-/
theorem ofMillis_spec {ms : Int} (hfirst : 1000 * firstSecond ≤ ms) (hend : ms < 1000 * endSecond) :
    ∃ t, ofMillis ms = .ok t ∧ t.seconds = ms / 1000 ∧ (t.microsecond = 0 ↔ ms % 1000 = 0) ∧
      (ms.natAbs < twoPow 33 * 1000 → (t.microsecond : Int) = 1000 * (ms % 1000)) := by
  have hinside := hfirst
  have hbefore := hend
  rw [firstSecond_eq] at hinside
  rw [endSecond_eq] at hbefore
  have hsmall : ms.natAbs < 1000 * 253402300800 := by omega
  have hmillis := ofMillis_eq_check hsmall
  obtain ⟨-, hlt, hzero⟩ := millisMicros_spec hsmall
  have hexact : ms.natAbs < twoPow 33 * 1000 → millisMicros ms.natAbs = 1000 * (ms.natAbs % 1000) :=
    micros_exact
  generalize millisMicros ms.natAbs = micros at hmillis hlt hzero hexact
  obtain ⟨total, htotal, hsigned⟩ : ∃ total : Int, ofMillis ms = check ⟨total⟩ ∧
      (ms < 0 ∧ total = -((ms.natAbs / 1000 : Nat) * 1000000 + micros) ∨
        ¬ ms < 0 ∧ total = (ms.natAbs / 1000 : Nat) * 1000000 + micros) := by
    refine ⟨_, hmillis, ?_⟩
    split
    case isTrue hneg => exact Or.inl ⟨hneg, rfl⟩
    case isFalse hnonneg => exact Or.inr ⟨hnonneg, rfl⟩
  have hseconds : (Instant.mk total).seconds = ms / 1000 := by
    rw [seconds, Int.fdiv_eq_ediv_of_nonneg _ (by decide)]
    dsimp only
    omega
  have hmicrosecond : ((Instant.mk total).microsecond : Int) = total % 1000000 := by
    rw [microsecond, Int.fmod_eq_emod_of_nonneg _ (by decide)]
    dsimp only
    omega
  refine ⟨⟨total⟩, ?_, hseconds, ?_, fun hnear => ?_⟩
  · rw [htotal]
    apply check_eq_ok
    · rw [hseconds]
      omega
    · rw [hseconds]
      omega
  · omega
  · have hown := hexact hnear
    omega

/-- Unix milliseconds of the years 1 to 9999 are an instant. -/
theorem ofMillis_isOk {ms : Int} (hfirst : 1000 * firstSecond ≤ ms) (hend : ms < 1000 * endSecond) :
    ∃ t, ofMillis ms = .ok t := by
  obtain ⟨t, ht, -⟩ := ofMillis_spec hfirst hend
  exact ⟨t, ht⟩

end Instant

/-- Unix milliseconds of the years 1 to 9999 have a date and a time of day. -/
theorem civilTextOfMillis_isOk {ms : Int} (hfirst : 1000 * Instant.firstSecond ≤ ms)
    (hend : ms < 1000 * Instant.endSecond) : ∃ text, civilTextOfMillis ms = .ok text := by
  obtain ⟨t, ht⟩ := Instant.ofMillis_isOk hfirst hend
  exact ⟨t.civilText, by rw [civilTextOfMillis, ht, Except.map]⟩

end CandleHistory.Calendar
