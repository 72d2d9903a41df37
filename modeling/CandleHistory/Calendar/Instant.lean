import CandleHistory.Calendar.Date
import CandleHistory.Number.Shortest

/-!
Points in time, counted in microseconds from the start of 1970, and the ways they are written.
Unix milliseconds become an instant by way of a double that holds seconds, so instants far from
1970 lose their exact milliseconds; the way back goes through a double too and cuts off.
-/

namespace CandleHistory.Calendar

open Number (Binary64)

/-- Why a time cannot be converted. -/
inductive TimeError where
  /-- The seconds do not fit a double, or there are more than 2^63 of them in either direction. -/
  | unrepresentable
  /-- The year does not fit 32 bits. -/
  | yearTooFar
  /-- The time lies outside the years 1 to 9999. -/
  | outsideCalendar
  /-- The time leaves the years 1 to 9999 when it is moved to UTC. -/
  | leavesCalendar
  deriving DecidableEq, Repr

/-- A point in time, in microseconds from the start of 1970 in UTC. -/
structure Instant where
  micros : Int
  deriving DecidableEq, Inhabited, Repr

/-- The seconds of a day. -/
def daySeconds : Nat := 86400

namespace Instant

/-- The first second of the calendar, counted from 1970. -/
def firstSecond : Int := -(daySeconds * epochDay : Nat)

/-- The first second after the calendar, counted from 1970. -/
def endSecond : Int := (daySeconds * (daysBeforeYear (lastYear + 1)) : Nat) + firstSecond

/-- Whole seconds from 1970, rounded down. -/
def seconds (t : Instant) : Int := t.micros.fdiv 1000000

/-- The microseconds within the second. -/
def microsecond (t : Instant) : Nat := (t.micros.fmod 1000000).toNat

/-- Whether an instant lies in the years 1 to 9999. -/
def isInCalendar (t : Instant) : Bool := firstSecond ≤ t.seconds && t.seconds < endSecond

/-- Refuses an instant that cannot be named by a date, for the reason that applies to its seconds.
The middle bounds are the ends of the years that fit 32 bits when counted from 1900. -/
def check (t : Instant) : Except TimeError Instant :=
  let s := t.seconds
  -- The seconds come as a double, for which the largest 64-bit integer is rounded up to 2^63, so
  -- this many seconds pass as fitting; it is their year that is refused.
  if Number.twoPow 63 < s.natAbs then .error .unrepresentable
  else if s < -67768040609740800 ∨ 67768036191676799 < s then .error .yearTooFar
  else if t.isInCalendar then .ok t
  else .error .outsideCalendar

/-- The instant that lies whole seconds and some microseconds after the start of 1970, or before it.
-/
def ofWholeSeconds (negative : Bool) (whole : Nat) : Option Int → Except TimeError Instant
  | some micros =>
    let total := whole * 1000000 + micros
    check ⟨if negative then -total else total⟩
  | none => .error .unrepresentable

/-- The instant of a number of seconds: whole microseconds, the fraction of the last second being
scaled in double precision and rounded half to even. -/
def ofSeconds : Binary64 → Except TimeError Instant
  | .finite negative units =>
    let fraction := Binary64.finite false (units % Binary64.unitsPerOne)
    ofWholeSeconds negative (units / Binary64.unitsPerOne)
      (fraction * Binary64.ofInt 1000000).round?
  | _ => .error .unrepresentable

/-- The instant of a number of Unix milliseconds. -/
def ofMillis (ms : Int) : Except TimeError Instant := ofSeconds (Binary64.ofIntRatio ms 1000)

/-- The Unix milliseconds of an instant, cut off toward zero. -/
def toMillis (t : Instant) : Int :=
  ((Binary64.ofIntRatio t.micros 1000000 * Binary64.ofInt 1000).truncate?).getD 0

/-- The date in UTC of an instant in the calendar. -/
def date (t : Instant) : Date :=
  .ofDayCount ((t.seconds - firstSecond) / daySeconds).toNat

/-- The second within the day in UTC. -/
def secondOfDay (t : Instant) : Nat := ((t.seconds - firstSecond) % daySeconds).toNat

/-- The time of day in UTC as hours, minutes and seconds. -/
def clockText (t : Instant) : String :=
  let s := t.secondOfDay
  Text.padded 2 (s / 3600) ++ ":" ++ Text.padded 2 (s / 60 % 60) ++ ":" ++ Text.padded 2 (s % 60)

/-- The date in UTC, the year having as many digits as are asked for at least. -/
def dateText (t : Instant) (yearDigits : Nat) : String :=
  let date := t.date
  Text.padded yearDigits date.year ++ "-" ++ Text.padded 2 date.month ++ "-" ++
    Text.padded 2 date.day

/-- The date and the time of day in UTC, the year without zeros in front. -/
def civilText (t : Instant) : String := t.dateText 1 ++ " " ++ t.clockText

/-- The instant in RFC 3339 form in UTC. A fraction of a second is written, to six digits, only if
there is one. -/
def rfc3339 (t : Instant) : String :=
  t.dateText 4 ++ "T" ++ t.clockText ++
    (if t.microsecond = 0 then "" else "." ++ Text.padded 6 t.microsecond) ++ "Z"

end Instant

/-- The date and time of day in UTC of a number of Unix milliseconds. -/
def civilTextOfMillis (ms : Int) : Except TimeError String :=
  (Instant.ofMillis ms).map Instant.civilText

/-- A date and time of day as a clock on a wall shows it, with the clock's offset from UTC in
seconds if it is known. Without an offset the clock is taken to show UTC. -/
structure WallTime where
  date : Date
  hour : Nat := 0
  minute : Nat := 0
  second : Nat := 0
  microsecond : Nat := 0
  offset : Option Int := none
  deriving DecidableEq, Inhabited, Repr

namespace WallTime

/-- Whether the date and the time of day exist and the offset is shorter than a day. -/
def isValid (w : WallTime) : Bool :=
  w.date.isValid && w.hour < 24 && w.minute < 60 && w.second < 60 && w.microsecond < 1000000 &&
    w.offset.all fun offset => offset.natAbs < daySeconds

/-- The instant that the clock shows. -/
def instant (w : WallTime) : Instant :=
  let seconds := daySeconds * w.date.dayCount + 3600 * w.hour + 60 * w.minute + w.second
  ⟨(seconds + Instant.firstSecond - w.offset.getD 0) * 1000000 + w.microsecond⟩

/-- What a clock in UTC shows at the start of a date. -/
def midnight (date : Date) : WallTime := { date, offset := some 0 }

/-- The instant that the clock shows, if UTC names it in the calendar too. A clock without an
offset is compared with the day before, which the first day of the calendar does not have. -/
def toUtc (w : WallTime) : Except TimeError Instant :=
  let t := w.instant
  if w.offset.isNone ∧ w.date.dayCount = 0 then .error .outsideCalendar
  else if t.isInCalendar then .ok t
  else .error .leavesCalendar

end WallTime

/-- What a clock shows that keeps UTC: a date and a time of day, which name an instant of the
calendar. -/
structure UtcTime where
  wall : WallTime
  instant : Instant
  toUtc_eq : wall.toUtc = .ok instant
  deriving Repr

/-- The start of 1970. -/
instance : Inhabited UtcTime := ⟨.midnight ⟨1970, 1, 1⟩, ⟨0⟩, by rfl⟩

/-- A time with its instant, if UTC names the instant in the calendar. -/
def UtcTime.ofWall (wall : WallTime) : Except TimeError UtcTime :=
  match h : wall.toUtc with
  | .ok instant => .ok ⟨wall, instant, h⟩
  | .error reason => .error reason

end CandleHistory.Calendar
