import CandleHistory.Json.Writer
import CandleHistory.Report.Writer

/-!
A series as market events, one JSON document to a line. An event wraps a candle in an envelope
whose field names and nesting are fixed, since other programs read them. Prices and amounts become
the nearest doubles.
-/

namespace CandleHistory.Report

open Calendar (Instant UtcTime WallTime)
open Number (Decimal)

/-- A candle as it was traded on a market, with the times that concern it. -/
structure MarketEvent where
  exchangeTime : Instant
  receivedTime : WallTime
  source : String
  instrument : Int
  closeTime : Instant
  candle : Candle
  deriving Repr

namespace MarketEvent

/-- A price or an amount as a double. -/
def number (d : Decimal) : Except Fault Value :=
  match d.toBinary64? with
  | some x => .ok (.real x)
  | none => .error .signalingNumber

/-- What an event says about its candle. -/
def candleDocument (event : MarketEvent) : Except Fault Value := do
  let candle := event.candle
  let openPrice ← number candle.openPrice
  let highPrice ← number candle.highPrice
  let lowPrice ← number candle.lowPrice
  let closePrice ← number candle.closePrice
  let volume ← number candle.volume
  return .object [("close_time", .text event.closeTime.rfc3339), ("open", openPrice),
    ("high", highPrice), ("low", lowPrice), ("close", closePrice), ("volume", volume),
    ("trade_count", .integer candle.tradeCount)]

/-- An event as a document. -/
def document (event : MarketEvent) : Except Fault Value := do
  let received ← event.receivedTime.toUtc.mapError Fault.time
  let candle ← event.candleDocument
  let body := Value.object [("time_exchange", .text event.exchangeTime.rfc3339),
    ("time_received", .text received.rfc3339), ("exchange", .text event.source),
    ("instrument", .integer event.instrument), ("kind", .object [("Candle", candle)])]
  return .object [("Item", .object [("Ok", body)])]

/-- An event as the text of a document. -/
def text (event : MarketEvent) : Except Fault String := do
  let document ← event.document
  Fault.unlessTooLong (Json.write? document)

variable {m : Type → Type} [Monad m]

/-- The event of a candle. The clock tells when the candle is received; it is read after the open
time and before the close time is converted. -/
def ofCandle (clock : m WallTime) (category : Category) (instrument : Int) (candle : Candle) :
    ExceptT Fault m MarketEvent := do
  let exchangeTime ← (Instant.ofMillis candle.openTime).mapError Fault.time
  let receivedTime ← clock
  let closeTime ← (Instant.ofMillis candle.closeTime).mapError Fault.time
  return {
    exchangeTime, receivedTime, source := category.eventSource, instrument, closeTime, candle }

/-- The line of a candle. -/
def line (clock : m WallTime) (category : Category) (instrument : Int) (candle : Candle) :
    ExceptT Fault m String := do
  let event ← ofCandle clock category instrument candle
  event.text

/-- Writes a series as one event to a line. The clock is read for every event. -/
def write (clock : m UtcTime) (print : String → m Unit) (category : Category) (instrument : Int)
    (candles : List Candle) : ExceptT Fault m Unit :=
  writeLines print (line (UtcTime.wall <$> clock) category instrument) candles

/-- What is reported when a series is written. -/
def doneMessage (candles : List Candle) : String :=
  s!"[OUTPUT] Wrote {candles.length} barter events"

end MarketEvent

end CandleHistory.Report
