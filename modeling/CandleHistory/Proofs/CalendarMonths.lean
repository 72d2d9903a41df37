import CandleHistory.Proofs.AcceptedDates
import Mathlib.Tactic.IntervalCases

/-!
The starts of calendar months, counted from January of year 1 on. Months have 28 to 31 days, so some
months in a row are no shorter than as many times thirty days if there are four of them or more, and
at most a day shorter if there are two or three.
-/

namespace CandleHistory.Calendar

/-- The first day of a month, counting from January of year 1 as number zero. -/
def firstOfMonth (number : Nat) : Date := ⟨number / 12 + 1, number % 12 + 1, 1⟩

/-- The Unix milliseconds at which a month starts. -/
def monthStart (number : Nat) : Int := (firstOfMonth number).startMillis

/-- The length of a month in a common year, in days. -/
def commonLength (number : Nat) : Nat := monthLength 1 (number % 12 + 1)

/-- The length of some months in a row if there is no leap year, in days. -/
def commonDays (number : Nat) : Nat → Nat
  | 0 => 0
  | count + 1 => commonLength number + commonDays (number + 1) count

theorem commonLength_le (number : Nat) :
    commonLength number ≤ monthLength (number / 12 + 1) (number % 12 + 1) := by
  have hplace : number % 12 < 12 := Nat.mod_lt _ (by decide)
  unfold commonLength
  generalize number % 12 = place at hplace ⊢
  generalize number / 12 + 1 = year
  interval_cases place <;> cases hleap : isLeapYear year <;>
    simp [monthLength, monthLengths, hleap] <;> decide

/-- The months before one of a year, and that month, are the months before the next one. -/
theorem sum_take_monthLengths {year place : Nat} (hplace : place < 11) :
    ((monthLengths year).take (place + 1)).foldl (· + ·) 0 =
      ((monthLengths year).take place).foldl (· + ·) 0 + monthLength year (place + 1) := by
  interval_cases place <;> simp [monthLength, monthLengths]

/-- The eleven months before the last one of a year, and that month, are the year. -/
theorem sum_take_monthLengths_last (year : Nat) :
    ((monthLengths year).take 11).foldl (· + ·) 0 + monthLength year (11 + 1) =
      365 + if isLeapYear year then 1 else 0 := by
  cases hleap : isLeapYear year <;> simp [monthLength, monthLengths, hleap]

theorem dayCount_firstOfMonth (number : Nat) :
    (firstOfMonth number).dayCount = daysBeforeYear (number / 12 + 1) +
      ((monthLengths (number / 12 + 1)).take (number % 12)).foldl (· + ·) 0 := rfl

/-- A month starts when the one before it has passed. -/
theorem dayCount_succ (number : Nat) :
    (firstOfMonth (number + 1)).dayCount =
      (firstOfMonth number).dayCount + monthLength (number / 12 + 1) (number % 12 + 1) := by
  rw [dayCount_firstOfMonth, dayCount_firstOfMonth]
  by_cases hlast : number % 12 = 11
  · have hnextYear : (number + 1) / 12 = number / 12 + 1 := by omega
    have hnextPlace : (number + 1) % 12 = 0 := by omega
    have hyear := daysBeforeYear_succ (number / 12)
    have hmonths := sum_take_monthLengths_last (number / 12 + 1)
    rw [hnextYear, hnextPlace, hlast, List.take_zero, List.foldl_nil]
    change daysBeforeYear (number / 12 + 2) = _
    rw [hyear, ← hmonths, Nat.add_assoc]
  · have hnextYear : (number + 1) / 12 = number / 12 := by omega
    have hnextPlace : (number + 1) % 12 = number % 12 + 1 := by omega
    have hplace : number % 12 < 11 := by omega
    rw [hnextYear, hnextPlace, sum_take_monthLengths hplace, Nat.add_assoc]

/-- Some months in a row are no shorter than they would be without a leap year. -/
theorem dayCount_add_le (number count : Nat) :
    (firstOfMonth number).dayCount + commonDays number count ≤
      (firstOfMonth (number + count)).dayCount := by
  induction count generalizing number with
  | zero => exact Nat.le_refl _
  | succ count ih =>
      have hthis := commonLength_le number
      have hnext := dayCount_succ number
      have hrest := ih (number + 1)
      rw [Nat.add_right_comm number 1 count] at hrest
      change (firstOfMonth number).dayCount +
        (commonLength number + commonDays (number + 1) count) ≤
          (firstOfMonth (number + count + 1)).dayCount
      omega

theorem commonLength_mod (number : Nat) : commonLength (number % 12) = commonLength number := by
  unfold commonLength
  rw [Nat.mod_mod]

/-- How long months in a row are only depends on the place in the year where they begin. -/
theorem commonDays_congr {number other : Nat} (h : number % 12 = other % 12) (count : Nat) :
    commonDays number count = commonDays other count := by
  induction count generalizing number other with
  | zero => rfl
  | succ count ih =>
      have hlength : commonLength number = commonLength other := by
        rw [← commonLength_mod number, h, commonLength_mod]
      have hnext : (number + 1) % 12 = (other + 1) % 12 := by omega
      rw [commonDays, commonDays, hlength, ih hnext]

theorem commonDays_add (number first second : Nat) :
    commonDays number (first + second) =
      commonDays number first + commonDays (number + first) second := by
  induction first generalizing number with
  | zero => rw [Nat.zero_add, commonDays, Nat.zero_add, Nat.add_zero]
  | succ first ih =>
      rw [Nat.add_right_comm first 1 second, commonDays, commonDays, ih,
        Nat.add_right_comm number 1 first, Nat.add_assoc number first 1, Nat.add_assoc]

/-- What holds of months that begin at each place in the year holds of months that begin anywhere.
-/
theorem le_commonDays_of_place {bound count : Nat}
    (h : ∀ place < 12, bound ≤ commonDays place count) (number : Nat) :
    bound ≤ commonDays number count := by
  rw [← commonDays_congr (Nat.mod_mod number 12) count]
  exact h _ (Nat.mod_lt _ (by decide))

theorem commonDays_one (number : Nat) : commonDays number 1 = commonLength number := Nat.add_zero _

theorem le_commonLength (number : Nat) : 28 ≤ commonLength number := by
  rw [← commonDays_one]
  apply le_commonDays_of_place
  decide

/-- Only Februaries have fewer than thirty days. -/
theorem eq_february {number : Nat} (h : commonLength number < 30) : number % 12 + 1 = 2 := by
  have hplace : ∀ place < 12, commonLength place < 30 → place + 1 = 2 := by decide
  rw [← commonLength_mod] at h
  exact hplace _ (Nat.mod_lt _ (by decide)) h

/-- Four months in a row, or more, have thirty days each on average, or more. -/
theorem thirty_mul_le_commonDays {count : Nat} (hcount : 4 ≤ count) (number : Nat) :
    30 * count ≤ commonDays number count := by
  induction count using Nat.strongRecOn generalizing number with
  | ind count ih =>
      -- Up to seven months are checked from each place in the year; more of them begin with four.
      rcases Nat.lt_or_ge count 8 with hfew | hmany
      · apply le_commonDays_of_place
        interval_cases count <;> decide
      · obtain ⟨rest, rfl⟩ : ∃ rest, count = 4 + rest := ⟨count - 4, by omega⟩
        have hfirst : 30 * 4 ≤ commonDays number 4 := by
          apply le_commonDays_of_place
          decide
        have hrest := ih rest (by omega) (by omega) (number + 4)
        rw [commonDays_add]
        omega

/-- Two months in a row, or more, lack at most one day of that. -/
theorem thirty_mul_le_commonDays_succ {count : Nat} (hcount : 2 ≤ count) (number : Nat) :
    30 * count ≤ commonDays number count + 1 := by
  rcases Nat.lt_or_ge count 4 with hfew | hmany
  · have hplace : 30 * count - 1 ≤ commonDays number count := by
      apply le_commonDays_of_place
      interval_cases count <;> decide
    omega
  · have hmonths := thirty_mul_le_commonDays hmany number
    omega

/-- Some months in a row take no less time than they would without a leap year. -/
theorem monthStart_add_le (number count : Nat) :
    monthStart number + 86400000 * commonDays number count ≤ monthStart (number + count) := by
  have hdays := dayCount_add_le number count
  unfold monthStart Date.startMillis
  omega

theorem monthStart_lt_iff {number later : Nat} :
    monthStart number < monthStart later ↔ number < later := by
  have hlater {first second : Nat} (h : first < second) : monthStart first < monthStart second := by
    obtain ⟨count, rfl⟩ := Nat.exists_eq_add_of_lt h
    have hlength := le_commonLength first
    have hmonths := monthStart_add_le first (count + 1)
    rw [commonDays, ← Nat.add_assoc] at hmonths
    omega
  constructor
  · intro h
    rcases Nat.lt_trichotomy number later with hlt | rfl | hgt
    · exact hlt
    · exact absurd h (Int.lt_irrefl _)
    · exact absurd (hlater hgt) (Int.lt_asymm h)
  · exact hlater

theorem monthStart_le_iff {number later : Nat} :
    monthStart number ≤ monthStart later ↔ number ≤ later := by
  rw [← Int.not_lt, monthStart_lt_iff, Nat.not_lt]

/-- A month of some place in the year begins at an instant, which is midnight UTC of its first day.
-/
def MonthBegins (month : Nat) (t : Int) : Prop :=
  ∃ date : Date, date.isValid = true ∧ date.month = month ∧ date.day = 1 ∧ date.startMillis = t

theorem one_le_monthLength (number : Nat) :
    1 ≤ monthLength (number / 12 + 1) (number % 12 + 1) := by
  have hcommon := le_commonLength number
  have hlength := commonLength_le number
  omega

theorem isValid_firstOfMonth {number : Nat} (h : number < 12 * lastYear) :
    (firstOfMonth number).isValid = true := by
  have hlength := one_le_monthLength number
  apply isValid_iff.mpr
  change 1 ≤ number / 12 + 1 ∧ number / 12 + 1 ≤ lastYear ∧ 1 ≤ 1 ∧
    1 ≤ monthLength (number / 12 + 1) (number % 12 + 1)
  omega

theorem month_le_of_monthLength {year month : Nat} (h : 1 ≤ monthLength year month) :
    1 ≤ month ∧ month ≤ 12 := by
  have hpos : monthLength year month ≠ 0 := by omega
  unfold monthLength at hpos
  split at hpos
  · exact absurd rfl hpos
  · refine ⟨by omega, Nat.le_of_not_lt fun hlarge => hpos ?_⟩
    have hbeyond : (monthLengths year).length ≤ month - 1 := by
      change 12 ≤ month - 1
      omega
    rw [List.getD_eq_getElem?_getD, List.getElem?_eq_none hbeyond]
    rfl

theorem month_le_of_isValid {date : Date} (h : date.isValid = true) :
    1 ≤ date.month ∧ date.month ≤ 12 := by
  obtain ⟨-, -, hday, hlast⟩ := isValid_iff.mp h
  exact month_le_of_monthLength (Nat.le_trans hday hlast)

/-- The months of the calendar, by their numbers. -/
theorem monthBegins_iff {month : Nat} {t : Int} :
    MonthBegins month t ↔
      ∃ number < 12 * lastYear, number % 12 + 1 = month ∧ monthStart number = t := by
  constructor
  · rintro ⟨⟨year, month', day⟩, hvalid, rfl, rfl, rfl⟩
    obtain ⟨hfirst, hlast, -, -⟩ := isValid_iff.mp hvalid
    obtain ⟨hlower, hupper⟩ := month_le_of_isValid hvalid
    change 1 ≤ year at hfirst
    change year ≤ lastYear at hlast
    change 1 ≤ month' at hlower
    change month' ≤ 12 at hupper
    have hyear : (12 * (year - 1) + (month' - 1)) / 12 + 1 = year := by omega
    have hmonth : (12 * (year - 1) + (month' - 1)) % 12 + 1 = month' := by omega
    refine ⟨12 * (year - 1) + (month' - 1), by omega, hmonth, ?_⟩
    unfold monthStart firstOfMonth
    rw [hyear, hmonth]
  · rintro ⟨number, hnumber, rfl, rfl⟩
    exact ⟨firstOfMonth number, isValid_firstOfMonth hnumber, rfl, rfl, rfl⟩

end CandleHistory.Calendar
