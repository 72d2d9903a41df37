import CandleHistory.Proofs.CalendarTime
import CandleHistory.Proofs.FixedNumerals
import CandleHistory.Proofs.Midnights
import CandleHistory.Proofs.NearestDecimal

/-!
Unix milliseconds on their way to an instant and back. The way there rounds to a double of seconds,
to a double of microseconds and to whole microseconds; the way back rounds to a double of seconds
and to a double of milliseconds, and cuts off. In the years 1 to 9999 a double of seconds is off by
2^-16 seconds at most, so all errors together are less than half a millisecond. What comes back is
the milliseconds themselves, or, where the last double fell short of them, the ones next to them on
the side of zero.
-/

namespace CandleHistory

open Number (twoPow)

namespace Number.Binary64

/-- A number below `2 ^ k` is off by `2 ^ (k - 54)` at most when it is rounded. -/
theorem abs_magnitude_sub_le {n d k : Nat} {q : ℚ} (hd : 0 < d) (hq : q * unitsPerOne = n / d)
    (h : q < 2 ^ k) : |magnitude (nearestUnits n d) - q| ≤ 2 ^ k / 2 ^ 54 := by
  have hdCast : (0 : ℚ) < d := Nat.cast_pos.mpr hd
  have hpower (j : Nat) : (twoPow j : ℚ) = 2 ^ j := Nat.cast_pow 2 j
  have hlt : n < d * twoPow (k + 1021 + 53) := by
    have hunits : twoPow (k + 1021 + 53) = twoPow k * unitsPerOne := twoPow_add k 1074
    have hquotient : q * unitsPerOne < twoPow k * unitsPerOne := by
      rw [hpower]
      exact mul_lt_mul_of_pos_right h cast_unitsPerOne_pos
    rw [hq, div_lt_iff₀ hdCast] at hquotient
    rw [hunits, Nat.mul_comm]
    exact_mod_cast hquotient
  have hnear := natAbs_sub_nearestUnits_le hd hlt
  have hscaled : 2 * (|q - magnitude (nearestUnits n d)| * (unitsPerOne * d)) ≤
      d * twoPow (k + 1021) := by
    rw [abs_sub_magnitude_mul hd hq]
    exact_mod_cast hnear
  have hunit : unitsPerOne = twoPow 53 * twoPow 1021 := twoPow_add 53 1021
  have hpos : (0 : ℚ) < twoPow 1021 * d := mul_pos (Nat.cast_pos.mpr (twoPow_pos 1021)) hdCast
  rw [twoPow_add, hunit, Nat.cast_mul, Nat.cast_mul, hpower 53, hpower k] at hscaled
  rw [abs_sub_comm, le_div_iff₀ (by positivity)]
  generalize (twoPow 1021 : ℚ) = finest at hscaled hpos
  refine le_of_mul_le_mul_right ?_ hpos
  linarith

end Number.Binary64

namespace Calendar.Instant

open Number (Binary64 roundHalfEven)
open Number.Binary64 (magnitude nearestUnits unitsPerOne)

/-- A number of units is its whole part and the rest. -/
theorem magnitude_eq_add (units : Nat) :
    magnitude units = ((units / unitsPerOne : Nat) : ℚ) + magnitude (units % unitsPerOne) := by
  have hdivision : (unitsPerOne : ℚ) * (units / unitsPerOne : Nat) + (units % unitsPerOne : Nat) =
      units := by
    exact_mod_cast Nat.div_add_mod units unitsPerOne
  rw [magnitude, magnitude, ← hdivision, add_div,
    mul_div_cancel_left₀ _ Binary64.cast_unitsPerOne_pos.ne']

theorem magnitude_lt_one {units : Nat} (h : units < unitsPerOne) : magnitude units < 1 := by
  rw [magnitude, div_lt_one Binary64.cast_unitsPerOne_pos]
  exact Nat.cast_lt.mpr h

/-- The microseconds of a fraction of a second are hardly further away than rounding takes them. -/
theorem abs_micros_sub_lt {fraction : Nat} (h : fraction < unitsPerOne) :
    |(roundHalfEven (microUnits fraction) unitsPerOne : ℚ) - 1000000 * magnitude fraction| < 1 := by
  have hone := Binary64.unitsPerOne_pos
  have hscaled : 1000000 * magnitude fraction * unitsPerOne =
      (fraction * (1000000 * unitsPerOne) : Nat) / unitsPerOne := by
    have hne := Binary64.cast_unitsPerOne_pos.ne'
    rw [mul_assoc, Binary64.magnitude_mul]
    push_cast
    field_simp
  have hsmall : 1000000 * magnitude fraction < 2 ^ 20 := by
    have hlt := magnitude_lt_one h
    linarith
  have hdouble := Binary64.abs_magnitude_sub_le hone hscaled hsmall
  have hrounded := ((Number.isRounded_roundHalfEven (n := microUnits fraction) hone).isHalfEven
    hone).near
  change |_ - magnitude (microUnits fraction)| ≤ _ at hrounded
  change |magnitude (microUnits fraction) - _| ≤ _ at hdouble
  have htriangle := abs_sub_le (roundHalfEven (microUnits fraction) unitsPerOne : ℚ)
    (magnitude (microUnits fraction)) (1000000 * magnitude fraction)
  linarith

theorem units_le_of_magnitude {units k : Nat} (h : magnitude units ≤ k) :
    units ≤ k * unitsPerOne := by
  rw [magnitude, div_le_iff₀ Binary64.cast_unitsPerOne_pos] at h
  exact_mod_cast h

/-- The units of the double of seconds of some microseconds. -/
def secondsUnits (micros : Nat) : Nat := nearestUnits (micros * unitsPerOne) 1000000

/-- The units of the double of milliseconds of some microseconds. -/
def millisUnits (micros : Nat) : Nat :=
  nearestUnits (secondsUnits micros * (1000 * unitsPerOne)) unitsPerOne

section Millis

variable {ms : Nat} (hms : ms < 1000 * 253402300800)

include hms

/-- Milliseconds of the calendar, counted away from 1970, have microseconds that are off by less
than seventeen. -/
theorem abs_millisMicros_sub_lt :
    |((ms / 1000 * 1000000 + millisMicros ms : Nat) : ℚ) - 1000 * ms| < 17 := by
  have hmsCast : (ms : ℚ) < 1000 * 253402300800 := by exact_mod_cast hms
  have hquotient : (ms / 1000 : ℚ) * unitsPerOne = (ms * unitsPerOne : Nat) / (1000 : Nat) := by
    push_cast
    ring
  have hseconds := Binary64.abs_magnitude_sub_le (k := 38) (by decide) hquotient (by linarith)
  have hmicros := abs_micros_sub_lt
    (Nat.mod_lt (nearestUnits (ms * unitsPerOne) 1000) Binary64.unitsPerOne_pos)
  rw [magnitude_eq_add, (millisMicros_spec hms).1] at hseconds
  change |(millisMicros ms : ℚ) - _| < 1 at hmicros
  obtain ⟨hsecondsLow, hsecondsHigh⟩ := abs_le.mp hseconds
  obtain ⟨hmicrosLow, hmicrosHigh⟩ := abs_lt.mp hmicros
  rw [Nat.cast_add, Nat.cast_mul, Nat.cast_ofNat, abs_lt]
  constructor <;> linarith

section Back

variable {micros : Nat} (h : |(micros : ℚ) - 1000 * ms| < 17)

include h

/-- The double of seconds of such microseconds is off by 2^-16 seconds at most. -/
theorem abs_secondsUnits_sub_le :
    |magnitude (secondsUnits micros) - micros / 1000000| ≤ 2 ^ 38 / 2 ^ 54 := by
  have hmsCast : (ms : ℚ) < 1000 * 253402300800 := by exact_mod_cast hms
  obtain ⟨-, hhigh⟩ := abs_lt.mp h
  have hquotient : (micros / 1000000 : ℚ) * unitsPerOne =
      (micros * unitsPerOne : Nat) / (1000000 : Nat) := by
    push_cast
    ring
  exact Binary64.abs_magnitude_sub_le (by decide) hquotient (by linarith)

/-- Their double of milliseconds is off by less than half a millisecond. -/
theorem abs_millisUnits_sub_lt : |magnitude (millisUnits micros) - ms| < 1 / 2 := by
  have hmsCast : (ms : ℚ) < 1000 * 253402300800 := by exact_mod_cast hms
  obtain ⟨hlow, hhigh⟩ := abs_lt.mp h
  obtain ⟨hsecondsLow, hsecondsHigh⟩ := abs_le.mp (abs_secondsUnits_sub_le hms h)
  unfold millisUnits
  generalize secondsUnits micros = units at *
  have hproduct : 1000 * magnitude units * unitsPerOne =
      (units * (1000 * unitsPerOne) : Nat) / unitsPerOne := by
    have hne := Binary64.cast_unitsPerOne_pos.ne'
    rw [mul_assoc, Binary64.magnitude_mul]
    push_cast
    field_simp
  obtain ⟨hmillisLow, hmillisHigh⟩ := abs_le.mp
    (Binary64.abs_magnitude_sub_le (k := 48) Binary64.unitsPerOne_pos hproduct (by linarith))
  rw [abs_lt]
  constructor <;> linarith

/-- So the whole milliseconds of this double are the ones that the microseconds are near to, or one
less. -/
theorem millisUnits_div_cases :
    millisUnits micros / unitsPerOne = ms ∨ millisUnits micros / unitsPerOne + 1 = ms := by
  obtain ⟨hlow, hhigh⟩ := abs_lt.mp (abs_millisUnits_sub_lt hms h)
  have hrest := magnitude_lt_one (Nat.mod_lt (millisUnits micros) Binary64.unitsPerOne_pos)
  have hnonneg : 0 ≤ magnitude (millisUnits micros % unitsPerOne) :=
    div_nonneg (Nat.cast_nonneg _) (Nat.cast_nonneg _)
  rw [magnitude_eq_add] at hlow hhigh
  have hle : ((millisUnits micros / unitsPerOne : Nat) : ℚ) < (ms + 1 : Nat) := by
    push_cast
    linarith
  have hge : (ms : ℚ) < (millisUnits micros / unitsPerOne + 2 : Nat) := by
    push_cast
    linarith
  rw [Nat.cast_lt] at hle hge
  omega

end Back

/-- No double on the way back is too large, so the way back ends with the whole milliseconds. -/
theorem toMillis_eq {total : Int} (h : |(total.natAbs : ℚ) - 1000 * ms| < 17) :
    (Instant.mk total).toMillis =
      Binary64.signedUnits (total < 0) (millisUnits total.natAbs / unitsPerOne) := by
  have hpower : twoPow 53 = 9007199254740992 := by decide
  have hmsCast : (ms : ℚ) < 1000 * 253402300800 := by exact_mod_cast hms
  obtain ⟨-, hhigh⟩ := abs_lt.mp h
  obtain ⟨-, hsecondsHigh⟩ := abs_le.mp (abs_secondsUnits_sub_le hms h)
  obtain ⟨-, hmillisHigh⟩ := abs_lt.mp (abs_millisUnits_sub_lt hms h)
  have hseconds : nearestUnits (total.natAbs * unitsPerOne) 1000000 ≤
      253402300801 * unitsPerOne := by
    apply units_le_of_magnitude
    change magnitude (secondsUnits total.natAbs) ≤ _
    push_cast
    linarith
  have hmillis : nearestUnits (secondsUnits total.natAbs * (1000 * unitsPerOne)) unitsPerOne ≤
      (ms + 1) * unitsPerOne := by
    apply units_le_of_magnitude
    change magnitude (millisUnits total.natAbs) ≤ _
    push_cast
    linarith
  have hthousand : Binary64.ofInt 1000 = .finite false (1000 * unitsPerOne) :=
    Binary64.ofInt_natCast (k := 1000) (by decide)
  have hfirst : Binary64.ofIntRatio total 1000000 =
      .finite (total < 0) (secondsUnits total.natAbs) := by
    unfold Binary64.ofIntRatio Binary64.ofRatio secondsUnits
    rw [Binary64.ofUnits_eq_finite hseconds (by omega)]
  have hsecond : Binary64.finite (total < 0) (secondsUnits total.natAbs) * Binary64.ofInt 1000 =
      .finite (total < 0) (millisUnits total.natAbs) := by
    unfold millisUnits
    rw [hthousand, Binary64.finite_mul, Bool.bne_false,
      Binary64.ofUnits_eq_finite hmillis (by omega)]
  rw [toMillis, hfirst, hsecond]
  rfl

end Millis

/-- An instant that passes the check is what the check was given. -/
theorem eq_of_check_eq_ok {t u : Instant} (h : t.check = .ok u) : u = t := by
  unfold check at h
  dsimp only at h
  split at h
  · contradiction
  · split at h
    · contradiction
    · split at h
      · exact (Except.ok.inj h).symm
      · contradiction

section Calendar

variable {ms : Int} (hfirst : 1000 * firstSecond ≤ ms) (hend : ms < 1000 * endSecond)

include hfirst hend

theorem natAbs_lt_of_inCalendar : ms.natAbs < 1000 * 253402300800 := by
  rw [firstSecond_eq] at hfirst
  rw [endSecond_eq] at hend
  omega

/-- The instant of milliseconds of the calendar lies on their side of 1970 and less than seventeen
microseconds away from them. Whole seconds are met. -/
theorem ofMillis_near {t : Instant} (ht : ofMillis ms = .ok t) :
    (t.micros < 0 ↔ ms < 0) ∧ |(t.micros.natAbs : ℚ) - 1000 * ms.natAbs| < 17 ∧
      (ms % 1000 = 0 → t.micros = ms / 1000 * 1000000) := by
  have hsmall := natAbs_lt_of_inCalendar hfirst hend
  have hnear := abs_millisMicros_sub_lt hsmall
  obtain ⟨-, -, hzero⟩ := millisMicros_spec hsmall
  have hchecked := ofMillis_eq_check hsmall
  rw [ht] at hchecked
  have hmicros := congrArg Instant.micros (eq_of_check_eq_ok hchecked.symm)
  dsimp only at hmicros
  generalize millisMicros ms.natAbs = micros at hnear hzero hmicros
  have habs : t.micros.natAbs = ms.natAbs / 1000 * 1000000 + micros := by
    split at hmicros <;> omega
  refine ⟨?_, ?_, fun hwhole => ?_⟩
  · split at hmicros <;> omega
  · rwa [habs]
  · split at hmicros <;> omega

/-- What comes back is the milliseconds, or the ones next to them toward zero. -/
theorem toMillis_cases {t : Instant} (ht : ofMillis ms = .ok t) :
    t.toMillis = ms ∨ t.toMillis = ms - ms.sign := by
  have hsmall := natAbs_lt_of_inCalendar hfirst hend
  obtain ⟨hside, hnear, -⟩ := ofMillis_near hfirst hend ht
  have hcases := millisUnits_div_cases hsmall hnear
  have hback : t.toMillis = _ := toMillis_eq hsmall hnear
  generalize millisUnits t.micros.natAbs / unitsPerOne = millis at hcases hback
  rw [hback, Binary64.signedUnits]
  obtain hneg | rfl | hpos := lt_trichotomy ms 0
  case inl =>
    rw [Int.sign_eq_neg_one_of_neg hneg, if_pos (decide_eq_true (hside.mpr hneg))]
    omega
  case inr.inl =>
    rw [if_neg (by simp [hside])]
    omega
  case inr.inr =>
    have hnonneg : ¬ t.micros < 0 := fun h => by omega
    rw [Int.sign_eq_one_of_pos hpos, if_neg (by simpa using hnonneg)]
    omega

/-- Whole seconds come back. -/
theorem toMillis_of_whole_seconds {t : Instant} (ht : ofMillis ms = .ok t)
    (hwhole : ms % 1000 = 0) : t.toMillis = ms := by
  obtain ⟨-, -, hmicros⟩ := ofMillis_near hfirst hend ht
  have hsmall := natAbs_lt_of_inCalendar hfirst hend
  have hpower : twoPow 52 = 4503599627370496 := by decide
  calc t.toMillis = (Instant.mk (ms / 1000 * 1000000)).toMillis := by rw [← hmicros hwhole]
    _ = 1000 * (ms / 1000) := toMillis_of_seconds (by omega)
    _ = ms := by omega

end Calendar

/-- Unix milliseconds of the years 1 to 9999 have an instant. On the way back it gives them, or the
milliseconds next to them on the side of zero; whole seconds come back as they were, and later
milliseconds never come back earlier. -/
theorem millis_come_back {ms : Int} (hfirst : 1000 * firstSecond ≤ ms)
    (hend : ms < 1000 * endSecond) : ∃ t, ofMillis ms = .ok t ∧
      (t.toMillis = ms ∨ t.toMillis = ms - ms.sign) ∧ (ms % 1000 = 0 → t.toMillis = ms) ∧
      ∀ later, ms ≤ later → later < 1000 * endSecond →
        ∃ u, ofMillis later = .ok u ∧ t.toMillis ≤ u.toMillis := by
  obtain ⟨t, ht, -⟩ := ofMillis_spec hfirst hend
  have hback := toMillis_cases hfirst hend ht
  refine ⟨t, ht, hback, toMillis_of_whole_seconds hfirst hend ht, fun later hle hlast => ?_⟩
  have hlaterFirst := hfirst.trans hle
  obtain ⟨u, hu, -⟩ := ofMillis_spec hlaterFirst hlast
  have hlater := toMillis_cases hlaterFirst hlast hu
  refine ⟨u, hu, ?_⟩
  obtain rfl | hlt := hle.eq_or_lt
  case inl =>
    have hsame : u = t := Except.ok.inj (hu.symm.trans ht)
    rw [hsame]
  case inr =>
    -- Both move toward zero by one at most. Between negative milliseconds only the earlier ones
    -- could catch up with the later ones, between positive ones only the later could fall back to
    -- the earlier, and they are one apart at least.
    have hsigns (k : Int) : k.sign = -1 ∧ k < 0 ∨ k.sign = 0 ∧ k = 0 ∨ k.sign = 1 ∧ 0 < k := by
      obtain h | h | h := lt_trichotomy k 0
      · exact Or.inl ⟨Int.sign_eq_neg_one_of_neg h, h⟩
      · exact Or.inr (Or.inl ⟨Int.sign_eq_zero_iff_zero.mpr h, h⟩)
      · exact Or.inr (Or.inr ⟨Int.sign_eq_one_of_pos h, h⟩)
    have hsign := hsigns ms
    have hlaterSign := hsigns later
    omega

/-- A number of milliseconds before 1970 that loses one on the way back. -/
theorem millis_come_back_one_less :
    ofMillis (-1001) = .ok ⟨-1001000⟩ ∧ (Instant.mk (-1001000)).toMillis = -1000 ∧
      ∃ t, ofMillis (-1001) = .ok t ∧
        (t.toMillis = -1001 ∨ t.toMillis = -1001 - Int.sign (-1001)) ∧
        ((-1001) % 1000 = (0 : Int) → t.toMillis = -1001) ∧
        ∀ later, -1001 ≤ later → later < 1000 * endSecond →
          ∃ u, ofMillis later = .ok u ∧ t.toMillis ≤ u.toMillis :=
  ⟨by decide +kernel, by decide +kernel, millis_come_back (by decide) (by decide)⟩

end Calendar.Instant

end CandleHistory
