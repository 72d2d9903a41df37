import CandleHistory.Market.Interval

/-!
Candles, and the rows of a page that they are read from. A row holds the open time, the four
prices, the volume and the turnover; what follows them is ignored. A row is either read without
loss or refused.
-/

namespace CandleHistory

open Number (Binary64 Decimal)

/-- A bar of the market: its time span in Unix milliseconds, its prices, and what was traded. -/
structure Candle where
  openTime : Int
  closeTime : Int
  openPrice : Decimal
  highPrice : Decimal
  lowPrice : Decimal
  closePrice : Decimal
  volume : Decimal
  turnover : Decimal
  /-- The number of trades; the exchange does not tell it. -/
  tradeCount : Int := 0
  deriving DecidableEq, Inhabited, Repr

/-- Why a row is refused. -/
inductive RowError where
  /-- The row is no list or tuple of seven items at least. -/
  | notRow (given : Value)
  | invalidStart (given : Value)
  | invalidField (name : String) (given : Value)
  /-- The source of the page itself reports that its data cannot be used. -/
  | reported (message : String)
  deriving Repr

/-- The reason why a row is refused, in words. -/
def RowError.message : RowError → String
  | .notRow given => s!"Invalid kline data format: {given.quoted}"
  | .invalidStart given => s!"Invalid start time: {given.quoted}"
  | .invalidField name given => s!"Invalid {name}: {given.quoted}"
  | .reported message => message

/-- What reading a row comes to. -/
inductive RowResult (α : Type) where
  | ok (value : α)
  | refused (reason : RowError)
  /-- The open time is an infinity. -/
  | infiniteStart
  deriving Repr

namespace Row

/-- The reading of an open time. -/
def openTime : Value → RowResult Int
  | .integer n => .ok n
  | .boolean b => .ok (if b then 1 else 0)
  | .real (.infinite _) => .infiniteStart
  | .real x =>
    match x.truncate? with
    | some n => .ok n
    | none => .refused (.invalidStart (.real x))
  | .text s =>
    match Number.readInteger? s with
    | some n => .ok n
    | none => .refused (.invalidStart (.text s))
  | given => .refused (.invalidStart given)

/-- The reading of a price or an amount: a finite decimal number, in the form in which it is
shown. -/
def amount (name : String) (given : Value) : Except RowError Decimal :=
  match Decimal.read? given.display with
  | some d => if d.isFinite then .ok d else .error (.invalidField name given)
  | none => .error (.invalidField name given)

/-- The items of a row. -/
def items? : Value → Option (List Value)
  | .list items => some items
  | .tuple items => some items
  | _ => none

/-- The reading of the six amounts that follow an open time. -/
def candle (interval : Interval) (start : Int)
    (opening high low closing volume turnover : Value) : Except RowError Candle := do
  let openPrice ← amount "open" opening
  let highPrice ← amount "high" high
  let lowPrice ← amount "low" low
  let closePrice ← amount "close" closing
  let volume ← amount "volume" volume
  let turnover ← amount "turnover" turnover
  return {
    openTime := start
    closeTime := start + interval.width
    openPrice, highPrice, lowPrice, closePrice, volume, turnover }

/-- The reading of a row of bars of a given width. -/
def read (interval : Interval) (row : Value) : RowResult Candle :=
  match items? row with
  | some (start :: opening :: high :: low :: closing :: volume :: turnover :: _) =>
    match openTime start with
    | .ok start =>
      match candle interval start opening high low closing volume turnover with
      | .ok candle => .ok candle
      | .error reason => .refused reason
    | .refused reason => .refused reason
    | .infiniteStart => .infiniteStart
  | _ => .refused (.notRow row)

/-- The reading of all rows of a page, up to the first that cannot be read. -/
def readAll (interval : Interval) : List Value → RowResult (List Candle)
  | [] => .ok []
  | row :: rows =>
    match read interval row with
    | .ok candle =>
      match readAll interval rows with
      | .ok candles => .ok (candle :: candles)
      | .refused reason => .refused reason
      | .infiniteStart => .infiniteStart
    | .refused reason => .refused reason
    | .infiniteStart => .infiniteStart

end Row

end CandleHistory
