import CandleHistory.Proofs.AcceptedOptions
import CandleHistory.Proofs.Announcement
import CandleHistory.Proofs.Midnights
import Mathlib.Order.Monotone.Basic

/-!
The dates of options that are read from the command line. A date that exists is counted in days of
the years 1 to 9999, so the range between two of them lies in the calendar.
-/

namespace CandleHistory

namespace Calendar

/-- The months before a day of the year and the days before it in its month are not a whole year. -/
theorem daysBefore_lt {year month day : Nat} (hday : 1 ≤ day)
    (hlength : day ≤ monthLength year month) :
    ((monthLengths year).take (month - 1)).foldl (· + ·) 0 + (day - 1) <
      365 + if isLeapYear year then 1 else 0 := by
  unfold monthLength at hlength
  unfold monthLengths at hlength ⊢
  split at hlength
  · omega
  · obtain ⟨before, rfl⟩ : ∃ before, month = before + 1 := ⟨month - 1, by omega⟩
    -- One case for each month; after the twelfth, no day has a place.
    rcases before with _ | _ | _ | _ | _ | _ | _ | _ | _ | _ | _ | _ | before
    all_goals
      cases hleap : isLeapYear year
      all_goals
        simp [hleap] at hlength ⊢
        omega

theorem isValid_iff {date : Date} : date.isValid = true ↔
    1 ≤ date.year ∧ date.year ≤ lastYear ∧ 1 ≤ date.day ∧
      date.day ≤ monthLength date.year date.month := by
  unfold Date.isValid
  simp [and_assoc]

theorem isLeapYear_iff {year : Nat} :
    isLeapYear year = true ↔ year % 4 = 0 ∧ (year % 100 ≠ 0 ∨ year % 400 = 0) := by
  simp [isLeapYear]

/-- A year is as long as the days from its start to the start of the next one. -/
theorem daysBeforeYear_succ (past : Nat) :
    daysBeforeYear (past + 2) =
      daysBeforeYear (past + 1) + (365 + if isLeapYear (past + 1) then 1 else 0) := by
  have hnow : daysBeforeYear (past + 1) = 365 * past + past / 4 - past / 100 + past / 400 := rfl
  have hnext : daysBeforeYear (past + 2) = 365 * (past + 1) + (past + 1) / 4 - (past + 1) / 100 +
    (past + 1) / 400 := rfl
  rw [hnow, hnext]
  split
  case isTrue hleap =>
    obtain ⟨hfour, hcentury⟩ := isLeapYear_iff.mp hleap
    omega
  case isFalse hcommon =>
    rw [isLeapYear_iff] at hcommon
    omega

theorem daysBeforeYear_mono : Monotone daysBeforeYear := by
  apply monotone_nat_of_le_succ
  intro year
  cases year with
  | zero => exact Nat.le_refl _
  | succ past =>
      have hnext := daysBeforeYear_succ past
      change daysBeforeYear (past + 1) ≤ daysBeforeYear (past + 2)
      omega

theorem dayCount_lt {date : Date} (h : date.isValid = true) :
    date.dayCount < daysBeforeYear (lastYear + 1) := by
  obtain ⟨hfirst, hlast, hday, hlength⟩ := isValid_iff.mp h
  obtain ⟨past, hpast⟩ : ∃ past, date.year = past + 1 := ⟨date.year - 1, by omega⟩
  have hdays := daysBefore_lt hday hlength
  have hnext := daysBeforeYear_succ past
  have hend : daysBeforeYear (past + 2) ≤ daysBeforeYear (lastYear + 1) :=
    daysBeforeYear_mono (by omega)
  unfold Date.dayCount
  rw [hpast] at hdays ⊢
  dsimp only
  omega

theorem startMillis_inCalendar {date : Date} (h : date.isValid = true) :
    1000 * Instant.firstSecond ≤ date.startMillis ∧
      date.startMillis < 1000 * Instant.endSecond := by
  have hcount := dayCount_lt h
  unfold Date.startMillis Instant.endSecond Instant.firstSecond daySeconds
  omega

/-- The start of a date that exists is had without loss. -/
theorem toMillis_midnight_of_isValid {date : Date} (h : date.isValid = true) :
    (WallTime.midnight date).instant.toMillis = date.startMillis :=
  WallTime.toMillis_midnight (Nat.lt_trans (dayCount_lt h) (by decide))

theorem isValid_of_read {text : String} {date : Date} (h : Date.read text = .ok date) :
    date.isValid = true := by
  unfold Date.read at h
  split at h
  case h_1 => cases h
  case h_2 read rest hfields =>
    split at h
    · cases h
    · split at h
      · cases h
      · split at h
        case isTrue => cases h
        case isFalse hvalid =>
          cases h
          simpa using hvalid

end Calendar

open Calendar (Instant)

namespace DateRange

theorem readDate_inCalendar {given : Value} {ms : Int} (h : readDate given = .ok ms) :
    1000 * Instant.firstSecond ≤ ms ∧ ms < 1000 * Instant.endSecond := by
  unfold readDate at h
  split at h
  case h_1 text =>
    split at h
    case h_1 date hdate =>
      have hvalid := Calendar.isValid_of_read hdate
      rw [← Except.ok.inj h, Calendar.toMillis_midnight_of_isValid hvalid]
      exact Calendar.startMillis_inCalendar hvalid
    case h_2 => cases h
  case h_2 => cases h

theorem inCalendar_of_dates {first last : Value} {range : DateRange}
    (h : ofDates first last = .ok range) : range.InCalendar := by
  unfold ofDates at h
  obtain ⟨start, hstart, h⟩ := exists_of_bind_eq_ok h
  obtain ⟨stop, hstop, h⟩ := exists_of_bind_eq_ok h
  unfold make at h
  split at h
  case isTrue hle =>
    cases h
    exact ⟨(readDate_inCalendar hstart).1, (readDate_inCalendar hstop).2⟩
  case isFalse => cases h

end DateRange

namespace CommandLine.Options

theorem inCalendar_of_readRange {arguments : Arguments} {range : DateRange}
    (h : readRange arguments = .ok range) : range.InCalendar := by
  unfold readRange at h
  obtain ⟨given, hgiven, hchecked⟩ := exists_of_bind_eq_ok h
  split at hchecked
  case isTrue => cases hchecked
  case isFalse =>
    cases hchecked
    exact DateRange.inCalendar_of_dates hgiven

/-- Whatever the arguments of the command line are, a range that is read from them lies in the
calendar. -/
theorem inCalendar_of_read {given : List String} {options : Options}
    (h : read given = .options options) : options.range.InCalendar := by
  obtain ⟨arguments, -, hfrom⟩ := exists_from_of_read h
  exact inCalendar_of_readRange hfrom.range

end CommandLine.Options

end CandleHistory
