import CandleHistory.Proofs.DayNumbers

/-!
The texts that are read as dates. They are given by a grammar that says nothing of a reader: what a
year, a month and a day look like, with slashes between them and nothing around them. A text is read
exactly if it spells a date of the calendar in this way, and it is read as an instant that is as
many days away from 1 January 1970 as there are steps from one date to the next.
-/

namespace CandleHistory

namespace Calendar

/-- The spelling of a year: four digits of any script. -/
inductive SpellsYear : List Char → Nat → Prop
  | digits {a b c d : Char} {thousands hundreds tens ones : Nat} :
      Text.digitValue? a = some thousands → Text.digitValue? b = some hundreds →
      Text.digitValue? c = some tens → Text.digitValue? d = some ones →
      SpellsYear [a, b, c, d] (1000 * thousands + 100 * hundreds + 10 * tens + ones)

/-- The spellings of a month: ten to twelve, or one digit, with a zero in front of it or not. -/
inductive SpellsMonth : List Char → Nat → Prop
  | late {ones : Nat} : ones ≤ 2 → SpellsMonth ['1', ones.digitChar] (10 + ones)
  | padded {ones : Nat} : 1 ≤ ones → ones ≤ 9 → SpellsMonth ['0', ones.digitChar] ones
  | single {ones : Nat} : 1 ≤ ones → ones ≤ 9 → SpellsMonth [ones.digitChar] ones

/-- The spellings of a day: thirty or thirty-one, ten to twenty-nine with a last digit of any
script, or one digit, with a zero or a space in front of it or neither. -/
inductive SpellsDay : List Char → Nat → Prop
  | thirties {ones : Nat} : ones ≤ 1 → SpellsDay ['3', ones.digitChar] (30 + ones)
  | tens {tens ones : Nat} {c : Char} : 1 ≤ tens → tens ≤ 2 → Text.digitValue? c = some ones →
      SpellsDay [tens.digitChar, c] (10 * tens + ones)
  | padded {ones : Nat} : 1 ≤ ones → ones ≤ 9 → SpellsDay ['0', ones.digitChar] ones
  | spaced {ones : Nat} : 1 ≤ ones → ones ≤ 9 → SpellsDay [' ', ones.digitChar] ones
  | single {ones : Nat} : 1 ≤ ones → ones ≤ 9 → SpellsDay [ones.digitChar] ones

namespace Date

/-- The text is a year, a month and a day with slashes between them, those of the date. -/
def SpelledBy (date : Date) (s : String) : Prop :=
  ∃ year month day, s.toList = year ++ '/' :: (month ++ '/' :: day) ∧
    SpellsYear year date.year ∧ SpellsMonth month date.month ∧ SpellsDay day date.day

/-- The text spells the date, and the calendar has the date. -/
def NamedBy (date : Date) (s : String) : Prop := date.SpelledBy s ∧ date.isValid = true

theorem nonzeroDigit?_eq_some {c : Char} {n : Nat} :
    nonzeroDigit? c = some n ↔ 1 ≤ n ∧ n ≤ 9 ∧ c = n.digitChar := by
  constructor
  · intro h
    simp only [nonzeroDigit?, Option.ite_none_right_eq_some, Option.some.injEq] at h
    obtain ⟨⟨hlow, hhigh⟩, hvalue⟩ := h
    have hlower : 49 ≤ c.toNat := hlow
    have hupper : c.toNat ≤ 57 := hhigh
    have hchar := Char.ofNat_toNat c
    change c.toNat - 48 = n at hvalue
    generalize c.toNat = code at hlower hupper hchar hvalue
    subst hvalue hchar
    interval_cases code <;> decide
  · rintro ⟨hlow, hhigh, rfl⟩
    interval_cases n <;> rfl

theorem digitsValue_four (thousands hundreds tens ones : Nat) :
    Text.digitsValue [thousands, hundreds, tens, ones] =
      1000 * thousands + 100 * hundreds + 10 * tens + ones := by
  simp only [Text.digitsValue, List.foldl_cons, List.foldl_nil]
  omega

theorem readYear?_append {year : List Char} {n : Nat} (h : SpellsYear year n) (rest : List Char) :
    readYear? (year ++ rest) = some (n, rest) := by
  obtain ⟨ha, hb, hc, hd⟩ := h
  simp [readYear?, ha, hb, hc, hd, digitsValue_four]

theorem readMonth?_append {month : List Char} {n : Nat} (h : SpellsMonth month n)
    (rest : List Char) : readMonth? (month ++ '/' :: rest) = some (n, '/' :: rest) := by
  cases h with
  | @late ones hhigh => interval_cases ones <;> rfl
  | @padded ones hlow hhigh => interval_cases n <;> rfl
  | @single ones hlow hhigh => interval_cases n <;> rfl

theorem readDay?_eq {day : List Char} {n : Nat} (h : SpellsDay day n) :
    readDay? day = some (n, []) := by
  cases h with
  | @thirties ones hhigh => interval_cases ones <;> rfl
  | @tens tens ones c hlow hhigh hlast =>
      interval_cases tens
      · change readDay? ['1', c] = _
        simp [readDay?, hlast]
      · change readDay? ['2', c] = _
        simp [readDay?, hlast]
  | @padded ones hlow hhigh => interval_cases n <;> rfl
  | @spaced ones hlow hhigh => interval_cases n <;> rfl
  | @single ones hlow hhigh => interval_cases n <;> rfl

theorem spellsYear_of_readYear? {cs rest : List Char} {n : Nat}
    (h : readYear? cs = some (n, rest)) : ∃ year, cs = year ++ rest ∧ SpellsYear year n := by
  unfold readYear? at h
  split at h
  case h_1 a b c d others =>
    obtain ⟨digits, hdigits, h⟩ := Option.bind_eq_some_iff.mp h
    cases h
    simp only [List.mapM_cons, List.mapM_nil, Option.bind_eq_bind, Option.pure_def,
      Option.bind_eq_some_iff, Option.some.injEq] at hdigits
    obtain ⟨w, hw, _, ⟨x, hx, _, ⟨y, hy, _, ⟨z, hz, _, rfl, rfl⟩, rfl⟩, rfl⟩, rfl⟩ := hdigits
    rw [digitsValue_four]
    exact ⟨[a, b, c, d], rfl, .digits hw hx hy hz⟩
  case h_2 => cases h

/-- A digit that is read off the front is one from one to nine. -/
theorem exists_digitChar_of_map {c : Char} {rest others : List Char} {n : Nat}
    (h : (nonzeroDigit? c).map (·, others) = some (n, rest)) :
    1 ≤ n ∧ n ≤ 9 ∧ c = n.digitChar ∧ others = rest := by
  obtain ⟨ones, hones, heq⟩ := Option.map_eq_some_iff.mp h
  obtain ⟨rfl, rfl⟩ := Prod.mk.inj heq
  obtain ⟨hlow, hhigh, hchar⟩ := nonzeroDigit?_eq_some.mp hones
  exact ⟨hlow, hhigh, hchar, rfl⟩

theorem spellsMonth_of_readMonth? {cs rest : List Char} {n : Nat}
    (h : readMonth? cs = some (n, rest)) : ∃ month, cs = month ++ rest ∧ SpellsMonth month n := by
  unfold readMonth? at h
  split at h
  case h_1 others =>
    cases h
    exact ⟨_, rfl, SpellsMonth.late (by decide : 0 ≤ 2)⟩
  case h_2 others =>
    cases h
    exact ⟨_, rfl, SpellsMonth.late (by decide : 1 ≤ 2)⟩
  case h_3 others =>
    cases h
    exact ⟨_, rfl, SpellsMonth.late (by decide : 2 ≤ 2)⟩
  case h_4 c others =>
    obtain ⟨hlow, hhigh, rfl, rfl⟩ := exists_digitChar_of_map h
    exact ⟨_, rfl, .padded hlow hhigh⟩
  case h_5 c others =>
    obtain ⟨hlow, hhigh, rfl, rfl⟩ := exists_digitChar_of_map h
    exact ⟨_, rfl, .single hlow hhigh⟩
  case h_6 => cases h

theorem spellsDay_of_readDay? {cs rest : List Char} {n : Nat}
    (h : readDay? cs = some (n, rest)) : ∃ day, cs = day ++ rest ∧ SpellsDay day n := by
  unfold readDay? at h
  split at h
  case h_1 others =>
    cases h
    exact ⟨_, rfl, SpellsDay.thirties (by decide : 0 ≤ 1)⟩
  case h_2 others =>
    cases h
    exact ⟨_, rfl, SpellsDay.thirties (by decide : 1 ≤ 1)⟩
  case h_3 c others =>
    obtain ⟨hlow, hhigh, rfl, rfl⟩ := exists_digitChar_of_map h
    exact ⟨_, rfl, .padded hlow hhigh⟩
  case h_4 c others =>
    obtain ⟨hlow, hhigh, rfl, rfl⟩ := exists_digitChar_of_map h
    exact ⟨_, rfl, .spaced hlow hhigh⟩
  case h_5 c =>
    obtain ⟨hlow, hhigh, rfl, rfl⟩ := exists_digitChar_of_map h
    exact ⟨_, rfl, .single hlow hhigh⟩
  case h_6 c d others _ _ _ _ =>
    split at h
    case h_1 last hlast =>
      obtain ⟨hc, hd⟩ := Option.ite_none_right_eq_some.mp hlast
      cases h
      rcases hc with rfl | rfl
      · exact ⟨['1', d], rfl, SpellsDay.tens (by decide : 1 ≤ 1) (by decide) hd⟩
      · exact ⟨['2', d], rfl, SpellsDay.tens (by decide : 1 ≤ 2) (by decide) hd⟩
    case h_2 =>
      obtain ⟨hlow, hhigh, rfl, rfl⟩ := exists_digitChar_of_map h
      exact ⟨_, rfl, .single hlow hhigh⟩
  case h_7 => cases h

theorem readSlash?_eq_some {cs rest : List Char} (h : readSlash? cs = some rest) :
    cs = '/' :: rest := by
  unfold readSlash? at h
  split at h
  case h_1 others => rw [Option.some.inj h]
  case h_2 => cases h

/-- The fields are read from a text to its end exactly if the text spells them. -/
theorem readFields?_eq_some {s : String} {date : Date} :
    readFields? s.toList = some (date, []) ↔ date.SpelledBy s := by
  constructor
  · intro h
    unfold readFields? at h
    obtain ⟨⟨year, afterYear⟩, hyear, h⟩ := Option.bind_eq_some_iff.mp h
    obtain ⟨monthOn, hslash, h⟩ := Option.bind_eq_some_iff.mp h
    obtain ⟨⟨month, afterMonth⟩, hmonth, h⟩ := Option.bind_eq_some_iff.mp h
    obtain ⟨dayOn, hslash', h⟩ := Option.bind_eq_some_iff.mp h
    obtain ⟨⟨day, rest⟩, hday, h⟩ := Option.bind_eq_some_iff.mp h
    cases h
    obtain ⟨yearChars, hyearChars, hspellsYear⟩ := spellsYear_of_readYear? hyear
    obtain ⟨monthChars, hmonthChars, hspellsMonth⟩ := spellsMonth_of_readMonth? hmonth
    obtain ⟨dayChars, hdayChars, hspellsDay⟩ := spellsDay_of_readDay? hday
    refine ⟨yearChars, monthChars, dayChars, ?_, hspellsYear, hspellsMonth, hspellsDay⟩
    rw [List.append_nil] at hdayChars
    rw [hyearChars, readSlash?_eq_some hslash, hmonthChars, readSlash?_eq_some hslash', hdayChars]
  · rintro ⟨year, month, day, hchars, hyear, hmonth, hday⟩
    simp [readFields?, hchars, readYear?_append hyear, readSlash?, readMonth?_append hmonth,
      readDay?_eq hday]

/-- A text is read as a date exactly if it names the date. -/
theorem read_eq_ok_iff {s : String} {date : Date} : read s = .ok date ↔ date.NamedBy s := by
  unfold read NamedBy
  rw [← readFields?_eq_some]
  constructor
  · intro h
    split at h
    case h_1 => cases h
    case h_2 found rest hfields =>
      split at h
      case isTrue => cases h
      case isFalse hrest =>
        split at h
        case isTrue => cases h
        case isFalse hyear =>
          split at h
          case isTrue => cases h
          case isFalse hvalid =>
            cases h
            have hempty : rest = [] := by simpa using hrest
            subst hempty
            exact ⟨hfields, by simpa using hvalid⟩
  · rintro ⟨hfields, hvalid⟩
    have hyear : date.year ≠ 0 := by
      obtain ⟨hfirst, -⟩ := isValid_iff.mp hvalid
      omega
    rw [hfields]
    simp [hyear, hvalid]

end Date

end Calendar

open Calendar (Date)

namespace DateRange

/-- What the reading of a text as a date comes to: the milliseconds of the days from 1 January 1970
to the date that the text names, or an input error if the text names none. -/
inductive DateOutcome (s : String) : Except InputError Int → Prop
  | read {date : Date} {days : Int} : date.NamedBy s → Date.epoch.DaysApart date days →
      DateOutcome s (.ok (86400000 * days))
  | refused {reason : Calendar.DateError} : (∀ date : Date, ¬ date.NamedBy s) →
      DateOutcome s (.error (.invalidDate (.text s) (.unreadable reason)))

/-- What two dates come to as the ends of a range: a range between their starts, which is empty if
they are the same date, or an input error if the first date comes after the last. -/
inductive RangeOutcome (first last : Date) : Except InputError DateRange → Prop
  | range {range : DateRange} : ¬ last.Before first → range.start = first.startMillis →
      range.stop = last.startMillis → (range.isEmpty = true ↔ first = last) →
      RangeOutcome first last (.ok range)
  | refused : last.Before first → RangeOutcome first last (.error .startNotBeforeEnd)

theorem readDate_of_named {s : String} {date : Date} (h : date.NamedBy s) :
    readDate (.text s) = .ok date.startMillis := by
  simp only [readDate, Date.read_eq_ok_iff.mpr h, Calendar.toMillis_midnight_of_isValid h.2]

/-- The reading of a text as a date comes to what its grammar says. -/
theorem dateOutcome_readDate (s : String) : DateOutcome s (readDate (.text s)) := by
  cases hread : Date.read s with
  | ok date =>
      have hnamed := Date.read_eq_ok_iff.mp hread
      obtain ⟨hactual, -⟩ := Date.isValid_iff_isActual.mp hnamed.2
      have hdays : Date.epoch.DaysApart date (date.dayCount - Calendar.epochDay) :=
        hactual.daysApart_epoch_iff.mpr rfl
      rw [readDate_of_named hnamed]
      exact .read hnamed hdays
  | error reason =>
      have hrefused : readDate (.text s) =
          .error (.invalidDate (.text s) (.unreadable reason)) := by
        simp only [readDate, hread]
      rw [hrefused]
      refine .refused fun date hnamed => ?_
      rw [Date.read_eq_ok_iff.mpr hnamed] at hread
      cases hread

/-- Two texts that name dates come to a range in the order of the calendar. -/
theorem rangeOutcome_ofDates {first last : String} {firstDate lastDate : Date}
    (hfirst : firstDate.NamedBy first) (hlast : lastDate.NamedBy last) :
    RangeOutcome firstDate lastDate (ofDates (.text first) (.text last)) := by
  obtain ⟨hfirstActual, -⟩ := Date.isValid_iff_isActual.mp hfirst.2
  obtain ⟨hlastActual, -⟩ := Date.isValid_iff_isActual.mp hlast.2
  have horder := hlastActual.startMillis_lt_iff hfirstActual
  have hmade : ofDates (.text first) (.text last) =
      make firstDate.startMillis lastDate.startMillis := by
    rw [ofDates, readDate_of_named hfirst, readDate_of_named hlast]
    rfl
  rw [hmade, make]
  split
  case isTrue hle =>
    refine .range (fun hbefore => ?_) rfl rfl ?_
    · exact absurd hle (Int.not_le.mpr (horder.mpr hbefore))
    · exact beq_iff_eq.trans (hfirstActual.startMillis_inj hlastActual)
  case isFalse hgt => exact .refused (horder.mp (Int.not_le.mp hgt))

/-- Texts are read as dates exactly by their grammar, and without loss. Whatever the text is, it is
read if it names a date, as the milliseconds of the days from 1 January 1970 to it, and refused if
it names none; and two texts that name dates make a range in the order of the calendar. -/
theorem dates_read_exactly (first last : String) :
    DateOutcome first (readDate (.text first)) ∧
      ∀ firstDate lastDate : Date, firstDate.NamedBy first → lastDate.NamedBy last →
        RangeOutcome firstDate lastDate (ofDates (.text first) (.text last)) :=
  ⟨dateOutcome_readDate first, fun _ _ hfirst hlast => rangeOutcome_ofDates hfirst hlast⟩

/-- Digits of two scripts, a month of one digit, a space in front of a day, and a leap day. -/
theorem dates_read_exactly_leapDay :
    Date.NamedBy ⟨2024, 2, 9⟩ "２０２４/2/ 9" ∧ Date.NamedBy ⟨2024, 2, 29⟩ "2024/02/2９" ∧
      DateOutcome "２０２４/2/ 9" (readDate (.text "２０２４/2/ 9")) ∧
      RangeOutcome ⟨2024, 2, 9⟩ ⟨2024, 2, 29⟩
        (ofDates (.text "２０２４/2/ 9") (.text "2024/02/2９")) := by
  have hfirst : Date.NamedBy ⟨2024, 2, 9⟩ "２０２４/2/ 9" := Date.read_eq_ok_iff.mp (by decide +kernel)
  have hlast : Date.NamedBy ⟨2024, 2, 29⟩ "2024/02/2９" := Date.read_eq_ok_iff.mp (by decide +kernel)
  obtain ⟨hread, hrange⟩ := dates_read_exactly "２０２４/2/ 9" "2024/02/2９"
  exact ⟨hfirst, hlast, hread, hrange _ _ hfirst hlast⟩

end DateRange

end CandleHistory
