import CandleHistory.Report.Writer

/-!
A series as a table with columns of fixed width. Numbers have four digits after the point; a
number that is wider than its column pushes the rest of the row to the right.
-/

namespace CandleHistory.Report.Table

open Number (Decimal)

/-- A text with blanks after it until it is `width` characters long. -/
def cell (width : Nat) (s : String) : String :=
  s ++ String.ofList (List.replicate (width - s.length) ' ')

/-- The widths of the columns. -/
def widths : List Nat := [20, 12, 12, 12, 12, 15, 15]

/-- The titles of the columns. -/
def titles : List String := ["Time", "Open", "High", "Low", "Close", "Volume", "Turnover"]

/-- One line of cells, with a blank between neighbours. -/
def line (cells : List String) : String := " ".intercalate (List.zipWith cell widths cells)

/-- The rule under the titles. -/
def rule : String := String.ofList (List.replicate 110 '-')

/-- The digits after the point of every number. -/
def places : Nat := 4

/-- A number as the table shows it. -/
def number (d : Decimal) : Except Fault String := Fault.unlessTooLong (d.fixedText? places)

/-- The time at which a candle opens, as the table shows it. -/
def time (candle : Candle) : Except Calendar.TimeError String :=
  (Calendar.civilTextOfMillis candle.openTime).map (· ++ " UTC")

/-- The row of a candle. -/
def row (candle : Candle) : Except Fault String := do
  let start ← (time candle).mapError .time
  let numbers ← [candle.openPrice, candle.highPrice, candle.lowPrice, candle.closePrice,
    candle.volume, candle.turnover].mapM number
  return line (start :: numbers)

/-- What stands above the titles. -/
def banner (count : Nat) : String := s!"\nReceived {count} kline records:\n\n"

/-- What stands below the rows. -/
def foot (count : Nat) : String := s!"\nTotal records: {count}\n"

/-- Writes a series as a table. -/
def write {m : Type → Type} [Monad m] (print : String → m Unit) (candles : List Candle) :
    ExceptT Fault m Unit := do
  print (banner candles.length)
  print (line titles ++ "\n")
  print (rule ++ "\n")
  writeLines print (fun candle => liftM (row candle)) candles
  print (foot candles.length)

end CandleHistory.Report.Table
