import CandleHistory.Proofs.CalendarTime
import CandleHistory.Proofs.CivilDates
import CandleHistory.Proofs.Numerals
import CandleHistory.Report.Table
import Mathlib.Tactic.IntervalCases

/-!
Times as they are printed. A date and a time of day name a second if the date exists, and lies as
many days from 1 January 1970 as the second does. Every text of an instant can be read as a date and
a time of day, and these name the second of the instant. So the texts of Unix milliseconds name the
second that the milliseconds lie in.
-/

namespace CandleHistory.Calendar

open Text (padded)

/-- No month has more than 31 days. -/
theorem Date.IsActual.day_le_31 {date : Date} (h : date.IsActual) : date.day ≤ 31 := by
  obtain ⟨hfirst, hlast⟩ := h.month_le
  have hday := h.day_le
  generalize date.month = month at hfirst hlast hday
  refine Nat.le_trans hday ?_
  interval_cases month <;> simp [monthLength, monthLengths]
  split <;> decide

/-- A date with a time of day. -/
structure CivilTime where
  date : Date
  hour : Nat
  minute : Nat
  second : Nat
  deriving DecidableEq, Repr

namespace CivilTime

/-- A date and a time of day in UTC name a second, counted from 1970. -/
structure Names (time : CivilTime) (seconds : Int) : Prop where
  isActual : time.date.IsActual
  hour_lt : time.hour < 24
  minute_lt : time.minute < 60
  second_lt : time.second < 60
  counts : ∃ days, Date.epoch.DaysApart time.date days ∧
    seconds = 86400 * days + 3600 * time.hour + 60 * time.minute + time.second

/-- They name no other second. -/
theorem Names.unique {time : CivilTime} {seconds others : Int} (h : time.Names seconds)
    (hothers : time.Names others) : seconds = others := by
  obtain ⟨days, hdays, rfl⟩ := h.counts
  obtain ⟨otherDays, hotherDays, rfl⟩ := hothers.counts
  rw [Date.isActual_epoch.daysApart_iff h.isActual] at hdays hotherDays
  rw [hdays, hotherDays]

/-- A date. The year has as many digits as are asked for at least, all other numbers have two. -/
def dateChars (yearDigits : Nat) (time : CivilTime) : List Char :=
  (padded yearDigits time.date.year).toList ++ '-' :: ((padded 2 time.date.month).toList ++
    '-' :: (padded 2 time.date.day).toList)

/-- A time of day. -/
def clockChars (time : CivilTime) : List Char :=
  (padded 2 time.hour).toList ++ ':' :: ((padded 2 time.minute).toList ++
    ':' :: (padded 2 time.second).toList)

/-- A date and a time of day with a mark between them. -/
def layout (yearDigits : Nat) (mark : Char) (time : CivilTime) : List Char :=
  time.dateChars yearDigits ++ mark :: time.clockChars

/-- Reads a number of any length. -/
def readNumber? (cs : List Char) : Option (Nat × List Char) :=
  let digits := cs.takeWhile Char.isDigit
  if digits.isEmpty then none
  else some (Nat.ofDigitChars 10 digits 0, cs.dropWhile Char.isDigit)

/-- Reads a number of two digits. -/
def readPair? : List Char → Option (Nat × List Char)
  | a :: b :: rest =>
    if a.isDigit && b.isDigit then some (Nat.ofDigitChars 10 [a, b] 0, rest) else none
  | _ => none

/-- Takes a mark off the front. -/
def readMark? (mark : Char) : List Char → Option (List Char)
  | c :: rest => if c = mark then some rest else none
  | [] => none

/-- Reads a date and a time of day with a mark between them, and tells what follows. -/
def read? (mark : Char) (s : String) : Option (CivilTime × String) := do
  let (year, cs) ← readNumber? s.toList
  let cs ← readMark? '-' cs
  let (month, cs) ← readPair? cs
  let cs ← readMark? '-' cs
  let (day, cs) ← readPair? cs
  let cs ← readMark? mark cs
  let (hour, cs) ← readPair? cs
  let cs ← readMark? ':' cs
  let (minute, cs) ← readPair? cs
  let cs ← readMark? ':' cs
  let (second, cs) ← readPair? cs
  some (⟨⟨year, month, day⟩, hour, minute, second⟩, String.ofList cs)

theorem readMark?_cons (mark : Char) (rest : List Char) :
    readMark? mark (mark :: rest) = some rest := if_pos rfl

theorem readPair?_padded {n : Nat} (h : n < 100) (rest : List Char) :
    readPair? ((padded 2 n).toList ++ rest) = some (n, rest) := by
  have hdigit : ∀ c ∈ (padded 2 n).toList, c.isDigit = true := fun c => Text.isDigit_of_mem_padded
  have hvalue := Text.ofDigitChars_padded 2 n
  have hlength := Text.length_padded (by decide : 0 < 2) h
  obtain ⟨a, b, hpair⟩ := List.length_eq_two.mp hlength
  rw [hpair] at hdigit hvalue ⊢
  have ha := hdigit a List.mem_cons_self
  have hb := hdigit b (List.mem_cons_of_mem a List.mem_cons_self)
  rw [List.cons_append, List.cons_append, List.nil_append, readPair?, ha, hb, hvalue]
  rfl

theorem readNumber?_padded (width n : Nat) {c : Char} (hc : c.isDigit = false) (rest : List Char) :
    readNumber? ((padded width n).toList ++ c :: rest) = some (n, c :: rest) := by
  have hdigit : ∀ d ∈ (padded width n).toList, d.isDigit = true :=
    fun d => Text.isDigit_of_mem_padded
  have hstop : ¬ c.isDigit = true := Bool.eq_false_iff.mp hc
  have hsome : (padded width n).toList.isEmpty = false :=
    List.isEmpty_eq_false_iff.mpr (Text.padded_ne_nil width n)
  unfold readNumber?
  rw [List.takeWhile_append_of_pos hdigit, List.dropWhile_append_of_pos hdigit,
    List.takeWhile_cons_of_neg hstop, List.dropWhile_cons_of_neg hstop, List.append_nil]
  dsimp only
  rw [hsome, Text.ofDigitChars_padded]
  rfl

/-- A printed date and time of day are read again, whatever follows. -/
theorem read?_layout {time : CivilTime} {seconds : Int} (h : time.Names seconds) (yearDigits : Nat)
    (mark : Char) {s : String} {rest : List Char}
    (hs : s.toList = time.layout yearDigits mark ++ rest) :
    read? mark s = some (time, String.ofList rest) := by
  have hmonth : time.date.month < 100 := by
    have hlast := h.isActual.month_le.2
    omega
  have hday : time.date.day < 100 := by
    have hlast := h.isActual.day_le_31
    omega
  have hhour : time.hour < 100 := Nat.lt_trans h.hour_lt (by decide)
  have hminute : time.minute < 100 := Nat.lt_trans h.minute_lt (by decide)
  have hsecond : time.second < 100 := Nat.lt_trans h.second_lt (by decide)
  have hdash : '-'.isDigit = false := by decide
  rw [read?, hs, layout, dateChars, clockChars]
  simp only [List.append_assoc, List.cons_append, Option.bind_eq_bind, Option.bind_some,
    readNumber?_padded _ _ hdash, readMark?_cons, readPair?_padded hmonth, readPair?_padded hday,
    readPair?_padded hhour, readPair?_padded hminute, readPair?_padded hsecond]

end CivilTime

namespace Instant

/-- The date and the time of day of an instant. -/
def civil (t : Instant) : CivilTime where
  date := t.date
  hour := t.secondOfDay / 3600
  minute := t.secondOfDay / 60 % 60
  second := t.secondOfDay % 60

/-- The date and the time of day of an instant name its second. -/
theorem names_civil {t : Instant} (hfirst : firstSecond ≤ t.seconds) : t.civil.Names t.seconds := by
  obtain ⟨hactual, hcount⟩ :=
    Date.ofDayCount_spec ((t.seconds - firstSecond) / daySeconds).toNat
  have hday : t.secondOfDay < 86400 ∧
      t.seconds = 86400 * ((t.date.dayCount : Int) - epochDay) + t.secondOfDay := by
    change _ = ((t.seconds - firstSecond) / daySeconds).toNat at hcount
    rw [firstSecond_eq] at hfirst
    unfold secondOfDay
    rw [date, hcount, firstSecond_eq]
    unfold daySeconds epochDay
    omega
  obtain ⟨hlt, hseconds⟩ := hday
  refine ⟨hactual, ?_, ?_, ?_, (t.date.dayCount : Int) - epochDay, ?_, ?_⟩
  · exact Nat.div_lt_of_lt_mul hlt
  · exact Nat.mod_lt _ (by decide)
  · exact Nat.mod_lt _ (by decide)
  · exact (Date.isActual_epoch.daysApart_iff hactual).mpr (by rw [Date.dayCount_epoch]; rfl)
  · rw [hseconds]
    unfold civil
    dsimp only
    omega

/-- Unix milliseconds of the years 1 to 9999 are an instant whose date and time of day name the
second that they lie in. -/
theorem exists_names {ms : Int} (hfirst : 1000 * firstSecond ≤ ms) (hend : ms < 1000 * endSecond) :
    ∃ t, ofMillis ms = .ok t ∧ t.civil.Names (ms / 1000) ∧ (t.microsecond = 0 ↔ ms % 1000 = 0) ∧
      (ms.natAbs < Number.twoPow 33 * 1000 → (t.microsecond : Int) = 1000 * (ms % 1000)) := by
  obtain ⟨t, ht, hseconds, hfraction, hexact⟩ := ofMillis_spec hfirst hend
  refine ⟨t, ht, ?_, hfraction, hexact⟩
  rw [← hseconds]
  apply names_civil
  rw [hseconds]
  rw [firstSecond_eq] at hfirst ⊢
  omega

theorem microsecond_lt (t : Instant) : t.microsecond < 1000000 := by
  rw [microsecond, Int.fmod_eq_emod_of_nonneg _ (by decide)]
  omega

theorem toList_civilText (t : Instant) : t.civilText.toList = t.civil.layout 1 ' ' := by
  simp [civilText, dateText, clockText, CivilTime.layout, CivilTime.dateChars, CivilTime.clockChars,
    civil]

theorem toList_rfc3339 (t : Instant) : t.rfc3339.toList = t.civil.layout 4 'T' ++
    ((if t.microsecond = 0 then "" else "." ++ padded 6 t.microsecond) ++ "Z").toList := by
  simp [rfc3339, dateText, clockText, CivilTime.layout, CivilTime.dateChars, CivilTime.clockChars,
    civil]

end Instant

/-- The text of a candle's open time, and those of an instant, name the second that the milliseconds
lie in, and no other one. The longer form has a fraction exactly if the milliseconds are no whole
seconds, and up to 2^33 seconds from 1970 it is their own. -/
theorem printed_times_true {ms : Int} (hfirst : 1000 * Instant.firstSecond ≤ ms)
    (hend : ms < 1000 * Instant.endSecond) :
    ∃ time t, (∀ seconds, CivilTime.Names time seconds ↔ seconds = ms / 1000) ∧
      (∃ text, civilTextOfMillis ms = .ok text ∧ CivilTime.read? ' ' text = some (time, "")) ∧
      (∀ candle : Candle, candle.openTime = ms → ∃ text, Report.Table.time candle = .ok text ∧
        CivilTime.read? ' ' text = some (time, " UTC")) ∧
      Instant.ofMillis ms = .ok t ∧
      ∃ fraction, CivilTime.read? 'T' t.rfc3339 = some (time, fraction ++ "Z") ∧
        (ms % 1000 = 0 ∧ fraction = "" ∨
          ms % 1000 ≠ 0 ∧ ∃ micros, 0 < micros ∧ micros < 1000000 ∧
            fraction = "." ++ padded 6 micros ∧
            (ms.natAbs < Number.twoPow 33 * 1000 → (micros : Int) = 1000 * (ms % 1000))) := by
  obtain ⟨t, ht, hnames, hfraction, hexact⟩ := Instant.exists_names hfirst hend
  have hcivil : civilTextOfMillis ms = .ok t.civilText := by rw [civilTextOfMillis, ht, Except.map]
  have hcell : ∀ rest : String,
      CivilTime.read? ' ' (t.civilText ++ rest) = some (t.civil, rest) := by
    intro rest
    have htext : (t.civilText ++ rest).toList = t.civil.layout 1 ' ' ++ rest.toList := by
      rw [String.toList_append, t.toList_civilText]
    rw [CivilTime.read?_layout hnames 1 ' ' htext, String.ofList_toList]
  have hlong := CivilTime.read?_layout hnames 4 'T' t.toList_rfc3339
  rw [String.ofList_toList] at hlong
  refine ⟨t.civil, t, fun seconds => ⟨fun h => h.unique hnames, fun h => h ▸ hnames⟩,
    ⟨t.civilText, hcivil, ?_⟩, fun candle hopen => ⟨t.civilText ++ " UTC", ?_, hcell " UTC"⟩, ht, _,
    hlong, ?_⟩
  · have hwhole := hcell ""
    rwa [String.append_empty] at hwhole
  · rw [Report.Table.time, hopen, hcivil]
    rfl
  · by_cases hwhole : ms % 1000 = 0
    · exact Or.inl ⟨hwhole, if_pos (hfraction.mpr hwhole)⟩
    · have hsome : t.microsecond ≠ 0 := fun hnone => hwhole (hfraction.mp hnone)
      exact Or.inr ⟨hwhole, t.microsecond, Nat.pos_of_ne_zero hsome, t.microsecond_lt,
        if_neg hsome, hexact⟩

/-- Half a second before 1970. -/
theorem printed_times_true_before_1970 : 1000 * Instant.firstSecond ≤ -500 ∧
    (-500 : Int) < 1000 * Instant.endSecond ∧
    ∃ time t, (∀ seconds, CivilTime.Names time seconds ↔ seconds = -1) ∧
      (∃ text, civilTextOfMillis (-500) = .ok text ∧ CivilTime.read? ' ' text = some (time, "")) ∧
      (∀ candle : Candle, candle.openTime = -500 → ∃ text, Report.Table.time candle = .ok text ∧
        CivilTime.read? ' ' text = some (time, " UTC")) ∧
      Instant.ofMillis (-500) = .ok t ∧
      CivilTime.read? 'T' t.rfc3339 = some (time, ".500000Z") := by
  have hfirst : 1000 * Instant.firstSecond ≤ -500 := by decide
  have hend : (-500 : Int) < 1000 * Instant.endSecond := by decide
  obtain ⟨time, t, hnames, htext, hcell, ht, fraction, hread, hfraction⟩ :=
    printed_times_true hfirst hend
  refine ⟨hfirst, hend, time, t, hnames, htext, hcell, ht, ?_⟩
  obtain ⟨hwhole, -⟩ | ⟨-, micros, -, -, rfl, hexact⟩ := hfraction
  · exact absurd hwhole (by decide)
  · have hmicros : micros = 500000 := by
      have hown := hexact (by decide)
      omega
    rw [hread, hmicros]
    rfl

end CandleHistory.Calendar
