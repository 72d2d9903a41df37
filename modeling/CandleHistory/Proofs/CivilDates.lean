import CandleHistory.Proofs.DayNumbers
import CandleHistory.Calendar.Instant

/-!
Dates from day counts. The year that is found for a day count is the one whose days the count falls
into, also on the last days of the long cycles, and the month is the one that the rest falls into.
So the date that is found exists, and it has the day count that it was found for.
-/

namespace CandleHistory.Calendar

namespace Date

/-- The month that is found is the one that the days fall into, after the months before it. -/
theorem exists_ofDayOfYear (year first : Nat) {lengths : List Nat} {days : Nat}
    (h : days < lengths.sum) :
    ∃ k day, ofDayOfYear year lengths first days = ⟨year, first + k, day + 1⟩ ∧
      day < lengths.getD k 0 ∧ days = (lengths.take k).sum + day := by
  induction lengths generalizing first days with
  | nil => exact absurd h (Nat.not_lt_zero _)
  | cons length lengths ih =>
      rw [ofDayOfYear]
      split
      case isTrue hhere => exact ⟨0, days, rfl, hhere, (Nat.zero_add _).symm⟩
      case isFalse hlater =>
        rw [List.sum_cons] at h
        have hrest : days - length < lengths.sum := by omega
        obtain ⟨k, day, hdate, hday, hdays⟩ := ih (first + 1) hrest
        refine ⟨k + 1, day, ?_, hday, ?_⟩
        · rw [hdate, Nat.add_right_comm, Nat.add_assoc]
        · rw [List.take_succ_cons, List.sum_cons]
          omega

theorem sum_monthLengths (year : Nat) :
    (monthLengths year).sum = 365 + if isLeapYear year then 1 else 0 := by
  cases hleap : isLeapYear year <;> simp [monthLengths, hleap]

/-- A day of the year has a month and a day in it. -/
theorem ofDayOfYear_spec {year days : Nat} (hyear : 1 ≤ year)
    (h : days < 365 + if isLeapYear year then 1 else 0) :
    (ofDayOfYear year (monthLengths year) 1 days).IsActual ∧
      (ofDayOfYear year (monthLengths year) 1 days).year = year ∧
      (ofDayOfYear year (monthLengths year) 1 days).dayCount = daysBeforeYear year + days := by
  rw [← sum_monthLengths] at h
  obtain ⟨k, day, hdate, hday, hdays⟩ := exists_ofDayOfYear year 1 h
  rw [hdate]
  refine ⟨⟨hyear, Nat.succ_pos _, ?_⟩, rfl, ?_⟩
  · have hmonth : monthLength year (1 + k) = (monthLengths year).getD k 0 := by
      rw [monthLength, if_neg (by omega), Nat.add_sub_cancel_left]
    rw [hmonth]
    exact hday
  · rw [dayCount, ← List.sum_eq_foldl_nat, Nat.add_sub_cancel_left, Nat.add_sub_cancel, hdays,
      Nat.add_assoc]

/-- The days before a year by the long cycles before it and in it. -/
theorem daysBeforeYear_cycles {quadricenturies centuries olympiads past : Nat}
    (hcenturies : centuries ≤ 3) (holympiads : olympiads ≤ 24) (hpast : past ≤ 3) :
    daysBeforeYear (400 * quadricenturies + 100 * centuries + 4 * olympiads + past + 1) =
      146097 * quadricenturies + 36524 * centuries + 1461 * olympiads + 365 * past := by
  have hfour : (400 * quadricenturies + 100 * centuries + 4 * olympiads + past) / 4 =
      100 * quadricenturies + 25 * centuries + olympiads := by omega
  have hhundred : (400 * quadricenturies + 100 * centuries + 4 * olympiads + past) / 100 =
      4 * quadricenturies + centuries := by omega
  have hfourHundred : (400 * quadricenturies + 100 * centuries + 4 * olympiads + past) / 400 =
      quadricenturies := by omega
  rw [daysBeforeYear, Nat.add_sub_cancel, hfour, hhundred, hfourHundred]
  omega

/-- The cycles of a day count: it falls into a year, and into none of the other ones. -/
theorem exists_year (days : Nat) :
    ∃ year day, ofDayCount days = ofDayOfYear year (monthLengths year) 1 day ∧ 1 ≤ year ∧
      day < 365 + (if isLeapYear year then 1 else 0) ∧ daysBeforeYear year + day = days := by
  refine ⟨_, _, rfl, Nat.succ_pos _, ?_, ?_⟩
  · split
    case isTrue => omega
    case isFalse hcommon =>
      rw [isLeapYear_iff] at hcommon
      omega
  · rw [daysBeforeYear_cycles (Nat.min_le_right _ _) (by omega) (Nat.min_le_right _ _)]
    omega

/-- The date of a day count exists and has that day count. -/
theorem ofDayCount_spec (days : Nat) :
    (ofDayCount days).IsActual ∧ (ofDayCount days).dayCount = days := by
  obtain ⟨year, day, hdate, hyear, hday, hdays⟩ := exists_year days
  obtain ⟨hactual, -, hcount⟩ := ofDayOfYear_spec hyear hday
  rw [hdate]
  exact ⟨hactual, hcount.trans hdays⟩

end Date

end CandleHistory.Calendar
