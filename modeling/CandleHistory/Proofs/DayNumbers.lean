import CandleHistory.Proofs.CalendarMonths
import Mathlib.Logic.Function.Iterate

/-!
Counting days in the calendar. A date has a next one, and the day count goes up by one from each
date to the next, in the order of years, months and days. So the difference of two day counts is the
number of steps that lead from one date to the other.
-/

namespace CandleHistory.Calendar

namespace Date

variable {date first last : Date}

/-- The month has the day. There is no last year. -/
structure IsActual (date : Date) : Prop where
  year_pos : 1 ≤ date.year
  day_pos : 1 ≤ date.day
  day_le : date.day ≤ monthLength date.year date.month

/-- The next date: the next day of the month, or the first of the next month, or New Year. -/
def next (date : Date) : Date :=
  if date.day < monthLength date.year date.month then { date with day := date.day + 1 }
  else if date.month < 12 then ⟨date.year, date.month + 1, 1⟩
  else ⟨date.year + 1, 1, 1⟩

/-- One date comes before another: its year does, or its month in the same year, or its day in the
same month. -/
def Before (first last : Date) : Prop :=
  first.year < last.year ∨ first.year = last.year ∧
    (first.month < last.month ∨ first.month = last.month ∧ first.day < last.day)

instance : DecidableRel Before := fun first last =>
  inferInstanceAs (Decidable (first.year < last.year ∨ first.year = last.year ∧
    (first.month < last.month ∨ first.month = last.month ∧ first.day < last.day)))

/-- One date is a number of days after another, or before it if the number is negative. -/
def DaysApart (first last : Date) (days : Int) : Prop :=
  next^[days.toNat] first = next^[(-days).toNat] last

/-- The number of a date's month, counting from January of year 1 as number zero. -/
def monthNumber (date : Date) : Nat := 12 * (date.year - 1) + (date.month - 1)

theorem isValid_iff_isActual : date.isValid = true ↔ date.IsActual ∧ date.year ≤ lastYear := by
  rw [isValid_iff]
  constructor
  · rintro ⟨hfirst, hlast, hday, hlength⟩
    exact ⟨⟨hfirst, hday, hlength⟩, hlast⟩
  · rintro ⟨⟨hfirst, hday, hlength⟩, hlast⟩
    exact ⟨hfirst, hlast, hday, hlength⟩

theorem IsActual.month_le (h : date.IsActual) : 1 ≤ date.month ∧ date.month ≤ 12 :=
  month_le_of_monthLength (Nat.le_trans h.day_pos h.day_le)

theorem IsActual.firstOfMonth_monthNumber (h : date.IsActual) :
    firstOfMonth date.monthNumber = ⟨date.year, date.month, 1⟩ := by
  have hyear := h.year_pos
  obtain ⟨hlower, hupper⟩ := h.month_le
  have hquotient : date.monthNumber / 12 + 1 = date.year := by
    unfold monthNumber
    omega
  have hplace : date.monthNumber % 12 + 1 = date.month := by
    unfold monthNumber
    omega
  rw [firstOfMonth, hquotient, hplace]

/-- A date is counted from the first of its month. -/
theorem IsActual.dayCount_eq (h : date.IsActual) :
    date.dayCount = (firstOfMonth date.monthNumber).dayCount + (date.day - 1) := by
  rw [h.firstOfMonth_monthNumber]
  rfl

/-- The next month begins when the month of a date has passed. -/
theorem IsActual.dayCount_firstOfMonth_succ (h : date.IsActual) :
    (firstOfMonth (date.monthNumber + 1)).dayCount =
      (firstOfMonth date.monthNumber).dayCount + monthLength date.year date.month := by
  have hsucc := dayCount_succ date.monthNumber
  have hfirst := h.firstOfMonth_monthNumber
  rw [firstOfMonth, mk.injEq] at hfirst
  rwa [hfirst.1, hfirst.2.1] at hsucc

theorem IsActual.next_cases (h : date.IsActual) :
    date.day < monthLength date.year date.month ∧
        date.next = ⟨date.year, date.month, date.day + 1⟩ ∨
      date.day = monthLength date.year date.month ∧
        date.next = firstOfMonth (date.monthNumber + 1) := by
  have hyear := h.year_pos
  have hday := h.day_le
  obtain ⟨hlower, hupper⟩ := h.month_le
  unfold next
  split
  case isTrue hinside => exact Or.inl ⟨hinside, rfl⟩
  case isFalse hend =>
    refine Or.inr ⟨by omega, ?_⟩
    unfold firstOfMonth monthNumber
    split
    case isTrue hmonth =>
      rw [mk.injEq]
      omega
    case isFalse hlast =>
      rw [mk.injEq]
      omega

theorem isActual_firstOfMonth (number : Nat) : (firstOfMonth number).IsActual :=
  ⟨Nat.succ_pos _, Nat.le_refl 1, one_le_monthLength number⟩

theorem IsActual.next (h : date.IsActual) : date.next.IsActual := by
  rcases h.next_cases with ⟨hinside, hnext⟩ | ⟨-, hnext⟩
  · rw [hnext]
    exact ⟨h.year_pos, Nat.succ_pos _, hinside⟩
  · rw [hnext]
    exact isActual_firstOfMonth _

/-- The day count goes up by one from each date to the next. -/
theorem IsActual.dayCount_next (h : date.IsActual) : date.next.dayCount = date.dayCount + 1 := by
  have hday := h.day_pos
  have hcount := h.dayCount_eq
  rcases h.next_cases with ⟨-, hnext⟩ | ⟨hend, hnext⟩
  · rw [hnext]
    unfold dayCount
    dsimp only
    omega
  · rw [hnext, h.dayCount_firstOfMonth_succ]
    omega

theorem IsActual.iterate_next (h : date.IsActual) (days : Nat) :
    (Date.next^[days] date).IsActual ∧ (Date.next^[days] date).dayCount = date.dayCount + days := by
  induction days with
  | zero => exact ⟨h, rfl⟩
  | succ days ih =>
      obtain ⟨hactual, hcount⟩ := ih
      rw [Function.iterate_succ_apply']
      refine ⟨hactual.next, ?_⟩
      rw [hactual.dayCount_next, hcount, Nat.add_assoc]

theorem dayCount_firstOfMonth_le {number later : Nat} (h : number ≤ later) :
    (firstOfMonth number).dayCount ≤ (firstOfMonth later).dayCount := by
  obtain ⟨count, rfl⟩ := Nat.exists_eq_add_of_le h
  have hmonths := dayCount_add_le number count
  omega

/-- Dates of different months are counted in the order of their months. -/
theorem IsActual.dayCount_lt_of_monthNumber_lt (hfirst : first.IsActual) (hlast : last.IsActual)
    (h : first.monthNumber < last.monthNumber) : first.dayCount < last.dayCount := by
  have hpos := hfirst.day_pos
  have hinside := hfirst.day_le
  have hcount := hfirst.dayCount_eq
  have hpassed := hfirst.dayCount_firstOfMonth_succ
  have hmonth := dayCount_firstOfMonth_le h
  have hlater := hlast.dayCount_eq
  rw [Nat.succ_eq_add_one] at hmonth
  omega

theorem IsActual.dayCount_lt_of_before (hfirst : first.IsActual) (hlast : last.IsActual)
    (h : first.Before last) : first.dayCount < last.dayCount := by
  have hyear := hfirst.year_pos
  obtain ⟨hfirstLower, hfirstUpper⟩ := hfirst.month_le
  obtain ⟨hlastLower, hlastUpper⟩ := hlast.month_le
  rcases h with hyears | ⟨hyears, hmonths | ⟨hmonths, hdays⟩⟩
  · apply hfirst.dayCount_lt_of_monthNumber_lt hlast
    unfold monthNumber
    omega
  · apply hfirst.dayCount_lt_of_monthNumber_lt hlast
    unfold monthNumber
    omega
  · have hsame : first.monthNumber = last.monthNumber := by
      unfold monthNumber
      rw [hyears, hmonths]
    have hpos := hfirst.day_pos
    rw [hfirst.dayCount_eq, hlast.dayCount_eq, hsame]
    omega

theorem before_trichotomy (first last : Date) :
    first.Before last ∨ first = last ∨ last.Before first := by
  obtain ⟨year, month, day⟩ := first
  obtain ⟨otherYear, otherMonth, otherDay⟩ := last
  simp only [Before, mk.injEq]
  omega

/-- The day count is in the order of years, months and days. -/
theorem IsActual.before_iff (hfirst : first.IsActual) (hlast : last.IsActual) :
    first.Before last ↔ first.dayCount < last.dayCount := by
  refine ⟨hfirst.dayCount_lt_of_before hlast, fun h => ?_⟩
  rcases before_trichotomy first last with hbefore | rfl | hafter
  · exact hbefore
  · exact absurd h (Nat.lt_irrefl _)
  · exact absurd h (Nat.lt_asymm (hlast.dayCount_lt_of_before hfirst hafter))

theorem IsActual.eq_iff (hfirst : first.IsActual) (hlast : last.IsActual) :
    first = last ↔ first.dayCount = last.dayCount := by
  refine ⟨congrArg dayCount, fun h => ?_⟩
  rcases before_trichotomy first last with hbefore | heq | hafter
  · have hlt := hfirst.dayCount_lt_of_before hlast hbefore
    omega
  · exact heq
  · have hlt := hlast.dayCount_lt_of_before hfirst hafter
    omega

/-- The number of days between two dates is the difference of their day counts, and no other number
is. -/
theorem IsActual.daysApart_iff (hfirst : first.IsActual) (hlast : last.IsActual) {days : Int} :
    first.DaysApart last days ↔ days = last.dayCount - first.dayCount := by
  obtain ⟨hafter, hafterCount⟩ := hfirst.iterate_next days.toNat
  obtain ⟨hother, hotherCount⟩ := hlast.iterate_next (-days).toNat
  unfold DaysApart
  constructor
  · intro h
    rw [h, hotherCount] at hafterCount
    omega
  · intro h
    apply (hafter.eq_iff hother).mpr
    omega

theorem IsActual.startMillis_lt_iff (hfirst : first.IsActual) (hlast : last.IsActual) :
    first.startMillis < last.startMillis ↔ first.Before last := by
  rw [hfirst.before_iff hlast]
  unfold startMillis
  omega

theorem IsActual.startMillis_inj (hfirst : first.IsActual) (hlast : last.IsActual) :
    first.startMillis = last.startMillis ↔ first = last := by
  rw [hfirst.eq_iff hlast]
  unfold startMillis
  omega

/-- The date from which the days of an instant are counted. -/
def epoch : Date := ⟨1970, 1, 1⟩

theorem isActual_epoch : epoch.IsActual := ⟨by decide, by decide, by decide⟩

theorem dayCount_epoch : epoch.dayCount = epochDay := by decide

/-- A date starts as many days after 1 January 1970 as the dates are apart. -/
theorem IsActual.daysApart_epoch_iff (h : date.IsActual) {days : Int} :
    epoch.DaysApart date days ↔ date.startMillis = 86400000 * days := by
  rw [isActual_epoch.daysApart_iff h, dayCount_epoch]
  unfold startMillis
  omega

end Date

end CandleHistory.Calendar
