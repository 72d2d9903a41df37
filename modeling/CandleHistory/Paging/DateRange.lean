import CandleHistory.Market.Interval

/-!
Ranges of time: the instants from a start, included, to an end, excluded, in Unix milliseconds.
-/

namespace CandleHistory

/-- The instants from `start` up to `stop`, which is not one of them. -/
structure DateRange where
  start : Int
  stop : Int
  start_le_stop : start ≤ stop := by omega
  deriving Repr

namespace DateRange

/-- The range between two instants, which must be in order. -/
def make (start stop : Int) : Except InputError DateRange :=
  if h : start ≤ stop then .ok ⟨start, stop, h⟩ else .error .startNotBeforeEnd

/-- Whether the range holds no instant. -/
def isEmpty (range : DateRange) : Bool := range.start == range.stop

/-- The length of the range in milliseconds. -/
def length (range : DateRange) : Nat := (range.stop - range.start).toNat

/-- Reads a date as the Unix milliseconds of its start in UTC, which are had by way of doubles like
those of any other instant. -/
def readDate (given : Value) : Except InputError Int :=
  match given with
  | .text s =>
    match Calendar.Date.read s with
    | .ok date => .ok (Calendar.WallTime.midnight date).instant.toMillis
    | .error reason => .error (.invalidDate given (.unreadable reason))
  | _ => .error (.invalidDate given (.notText given))

/-- The range from the start of one date to the start of another. -/
def ofDates (first last : Value) : Except InputError DateRange := do
  let start ← readDate first
  let stop ← readDate last
  make start stop

end DateRange

end CandleHistory
