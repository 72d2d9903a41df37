import CandleHistory.Market.Candle

/-!
Faults: failures that no part of the program turns into a result or a message of its own, so that
they end whatever was going on.
-/

namespace CandleHistory

/-- A failure that is not handled. -/
inductive Fault where
  /-- A time cannot be converted. -/
  | time (reason : Calendar.TimeError)
  /-- A bound of a fetch makes no sense. -/
  | bound (reason : BoundError)
  /-- A page of rows cannot be gone through. -/
  | pageNotIterable
  /-- The open time of a row is an infinity. -/
  | infiniteStart
  /-- The return code of a reply is a list or an object, so it cannot be looked up. -/
  | codeNotKey
  /-- The pause between requests does not fit a double. -/
  | spacingTooLong
  /-- A number has too many digits to be written. -/
  | tooManyDigits
  /-- A count does not fit a machine word. -/
  | countTooLarge
  /-- A signaling datum was used as a number. -/
  | signalingNumber
  /-- The word for a log level names a text that is no level. -/
  | unknownLevel
  /-- The word for a log level names something that is neither a number nor a text. -/
  | levelNotNumber
  /-- A flag that needs a text was given none. -/
  | flagWithoutText
  /-- A flag that needs a number was given none. -/
  | flagWithoutNumber
  /-- The user interrupted the program. -/
  | interrupted
  /-- The other side of a request failed in a way of its own. -/
  | foreign (label : String)
  deriving Repr

/-- The fault in words. -/
def Fault.message : Fault → String
  | .time .unrepresentable => "a time does not fit the clock"
  | .time .yearTooFar => "the year of a time does not fit the calendar's count"
  | .time .outsideCalendar => "a time lies outside the years 1 to 9999"
  | .time .leavesCalendar => "a time leaves the years 1 to 9999 in UTC"
  | .bound reason => reason.message
  | .pageNotIterable => "a page holds no rows that could be gone through"
  | .infiniteStart => "a row opens at an infinite time"
  | .codeNotKey => "a return code is a list or an object"
  | .spacingTooLong => "the pause between requests is too long"
  | .tooManyDigits => "a number has too many digits to be written"
  | .countTooLarge => "a count does not fit a machine word"
  | .signalingNumber => "a signaling datum is used as a number"
  | .unknownLevel => "the log level is unknown"
  | .levelNotNumber => "the log level is no number"
  | .flagWithoutText => "a flag has no text"
  | .flagWithoutNumber => "a flag has no number"
  | .interrupted => "the program was interrupted"
  | .foreign label => label

/-- A text in which numbers are written, if none of them has too many digits. -/
def Fault.unlessTooLong : Option String → Except Fault String
  | some text => .ok text
  | none => .error .tooManyDigits

/-- The numeral of an integer. -/
def Number.integerText (n : Int) : Except Fault String := Fault.unlessTooLong (integerText? n)

theorem Number.integerText_of_lt {n : Int} (h : n.natAbs < integerBound) :
    integerText n = .ok (toString n) := by
  rw [integerText, integerText?, if_pos h]
  rfl

theorem Number.integerText_of_not_lt {n : Int} (h : ¬ n.natAbs < integerBound) :
    integerText n = .error .tooManyDigits := by
  rw [integerText, integerText?, if_neg h]
  rfl

/-- Why a page of rows could not be had. -/
inductive PageError where
  /-- Another attempt may succeed. -/
  | transient (message : String)
  /-- The exchange refuses the request. -/
  | rejected (code message : Value)
  /-- The page could not be delivered. -/
  | undelivered (message : String)
  /-- A row of the page cannot be used. -/
  | malformed (reason : RowError)
  deriving Repr

namespace PageError

/-- The page error in words. -/
def message : PageError → String
  | transient message => message
  | rejected code message => s!"API rejected request: code={code.display}, msg={message.display}"
  | undelivered message => message
  | malformed reason => reason.message

/-- Whether another attempt may succeed. -/
def isTransient : PageError → Bool
  | transient _ => true
  | _ => false

end PageError

/-- What a call for a page comes to. -/
inductive PageAnswer where
  | page (rows : Value)
  | failed (reason : PageError)
  | broke (fault : Fault)
  deriving Repr

end CandleHistory
