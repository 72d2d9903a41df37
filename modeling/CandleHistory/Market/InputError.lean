import CandleHistory.Calendar.DateText
import CandleHistory.Value

/-!
What can be wrong with the input of a fetch, and the messages that say so. All of it is found
before any request is made.
-/

namespace CandleHistory

open Calendar (DateError)
open Number (Binary64)

/-- Why a datum is not a date. -/
inductive DateProblem where
  /-- The datum is no text. -/
  | notText (given : Value)
  | unreadable (reason : DateError)
  deriving Repr

/-- The reason why a datum is not a date, in words. -/
def DateProblem.message : DateProblem → String
  | .notText given => s!"strptime() argument 1 must be str, not {given.kindName}"
  | .unreadable (.mismatch text) =>
    s!"time data {Text.quoted text} does not match format '%Y/%m/%d'"
  | .unreadable (.leftOver rest) => s!"unconverted data remains: {rest}"
  | .unreadable (.noSuchYear year) => s!"year {year} is out of range"
  | .unreadable .noSuchDay => "day is out of range for month"

/-- Input that cannot be used. -/
inductive InputError where
  | unsupportedInterval (given : Value)
  | unsupportedCategory (given : Value)
  | invalidDate (given : Value) (problem : DateProblem)
  | startNotBeforeEnd
  | emptySymbol
  | limitOutOfRange (limit : Value)
  | maxRecordsFlag (given : Int)
  | emptySymbolFlag
  | instrumentIndexMissing
  | instrumentIndexNegative (given : Int)
  | settingNotNumber (name text : String)
  deriving Repr

/-- The most bars that the exchange returns for one request. -/
def largestPage : Nat := 1000

/-- The input error in words. -/
def InputError.message : InputError → String
  | .unsupportedInterval given =>
    s!"Unsupported interval '{given.display}'. Expected one of: " ++
      "1, 3, 5, 15, 30, 60, 120, 240, 360, 720, D, W, M"
  | .unsupportedCategory given =>
    s!"Unsupported category '{given.display}'. Expected one of: spot, linear, inverse"
  | .invalidDate given problem => s!"Invalid date format '{given.display}': {problem.message}"
  | .startNotBeforeEnd => "Start date must be before end date"
  | .emptySymbol => "Symbol must not be empty"
  | .limitOutOfRange limit =>
    s!"Per-call limit must be between 1 and {largestPage}, got {limit.display}"
  | .maxRecordsFlag given => s!"--max-records must be positive, got {given}"
  | .emptySymbolFlag => "--symbol must not be empty"
  | .instrumentIndexMissing => "--instrument-index is required for barter output"
  | .instrumentIndexNegative given => s!"--instrument-index must be >= 0, got {given}"
  | .settingNotNumber name text => s!"{name} must be a number, got {Text.quoted text}"

/-- A bound of a fetch that makes no sense. Such a bound is a mistake of the caller. -/
inductive BoundError where
  | maxRecords (given : Int)
  | recordCap (given : Int)
  | negativeSpacing (given : Binary64)
  deriving Repr

/-- The senseless bound in words. -/
def BoundError.message : BoundError → String
  | .maxRecords given => s!"max_records must be positive, got {given}"
  | .recordCap given => s!"record_cap must be positive, got {given}"
  | .negativeSpacing given => s!"min_interval must be >= 0, got {given.text}"

end CandleHistory
