import CandleHistory.Market.InputError
import CandleHistory.Text.Uppercase

/-!
The widths of bars and the kinds of markets that the exchange offers, by the words it has for
them.
-/

namespace CandleHistory

/-- The width of a bar. -/
inductive Interval where
  | minutes1
  | minutes3
  | minutes5
  | minutes15
  | minutes30
  | hours1
  | hours2
  | hours4
  | hours6
  | hours12
  | day
  | week
  | month
  deriving DecidableEq, Inhabited, Repr

namespace Interval

/-- All widths, the narrowest first. -/
def all : List Interval :=
  [minutes1, minutes3, minutes5, minutes15, minutes30, hours1, hours2, hours4, hours6, hours12,
    day, week, month]

/-- The exchange's word for a width. -/
def code : Interval → String
  | minutes1 => "1"
  | minutes3 => "3"
  | minutes5 => "5"
  | minutes15 => "15"
  | minutes30 => "30"
  | hours1 => "60"
  | hours2 => "120"
  | hours4 => "240"
  | hours6 => "360"
  | hours12 => "720"
  | day => "D"
  | week => "W"
  | month => "M"

/-- The width in minutes. A month counts as thirty days. -/
def lengthMinutes : Interval → Nat
  | minutes1 => 1
  | minutes3 => 3
  | minutes5 => 5
  | minutes15 => 15
  | minutes30 => 30
  | hours1 => 60
  | hours2 => 120
  | hours4 => 240
  | hours6 => 360
  | hours12 => 720
  | day => 1440
  | week => 10080
  | month => 43200

/-- The width in milliseconds. -/
def width (interval : Interval) : Nat := 60000 * interval.lengthMinutes

/-- Reads a width. Blanks around the word and the case of its letters do not count. -/
def read (given : Value) : Except InputError Interval :=
  let word := Text.upper (Text.trim given.display)
  match all.find? (·.code == word) with
  | some interval => .ok interval
  | none => .error (.unsupportedInterval given)

theorem width_pos (interval : Interval) : 0 < interval.width := by
  cases interval <;> decide

end Interval

/-- The kind of a market. -/
inductive Category where
  | spot
  | linear
  | inverse
  deriving DecidableEq, Inhabited, Repr

namespace Category

/-- All kinds of markets. -/
def all : List Category := [spot, linear, inverse]

/-- The exchange's word for a kind of market. -/
def code : Category → String
  | spot => "spot"
  | linear => "linear"
  | inverse => "inverse"

/-- The name under which a market's events are published. -/
def eventSource : Category → String
  | spot => "bybit_spot"
  | linear => "bybit_perpetuals_usd"
  | inverse => "bybit_perpetuals_usd"

/-- Reads a kind of market. Blanks around the word and the case of its letters do not count. -/
def read (given : Value) : Except InputError Category :=
  let word := Text.lowerLatin (Text.trim given.display)
  match all.find? (·.code == word) with
  | some category => .ok category
  | none => .error (.unsupportedCategory given)

end Category

end CandleHistory
