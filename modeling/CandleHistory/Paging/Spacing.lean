import CandleHistory.Fault
import CandleHistory.Log

/-!
Spacing of requests: a request is not released before a fixed time has passed since the last one
was released or completed. The clock may show any numbers that can be added and compared: doubles
when the program runs, exact ones when its behaviour is studied.
-/

namespace CandleHistory

open Number (Binary64)

/-- Numbers that measure time in seconds. -/
class TimeNumber (τ : Type) extends Add τ, Sub τ where
  /-- Whether a time is longer than none. -/
  isPositive : τ → Bool
  /-- A time in whole milliseconds, as text. -/
  millisText : τ → String

instance : TimeNumber Binary64 where
  isPositive t := Binary64.zero.lt t
  millisText t := (t * Binary64.ofInt 1000).wholeText

/-- What the spacing of requests needs from the world around it. -/
structure Clock (τ : Type) (m : Type → Type) where
  now : m τ
  sleep : τ → m Unit
  log : LogRecord → m Unit

/-- The least time between requests, and when the last one was released or completed. -/
structure Spacing (τ : Type) where
  gap : τ
  last : Option τ := none
  deriving Repr

namespace Spacing

/-- The spacing with a given gap, which must not be negative. -/
def make (gap : Binary64) : Except BoundError (Spacing Binary64) :=
  if gap.lt .zero then .error (.negativeSpacing gap) else .ok { gap }

variable {τ : Type} [TimeNumber τ]

/-- The time that is still to wait at a given moment, if there is any. -/
def delay? (spacing : Spacing τ) (now : τ) : Option τ :=
  match spacing.last with
  | none => none
  | some last =>
    let delay := last + spacing.gap - now
    if TimeNumber.isPositive delay then some delay else none

variable {m : Type → Type} [Monad m]

/-- Notes that a request is released or completed now. -/
def mark (clock : Clock τ m) (spacing : Spacing τ) : m (Spacing τ) := do
  let now ← clock.now
  return { spacing with last := some now }

/-- Sleeps for what is still to wait. -/
def pause (clock : Clock τ m) (spacing : Spacing τ) : m Unit := do
  if spacing.last.isSome then
    let now ← clock.now
    match spacing.delay? now with
    | some delay =>
      clock.log ⟨.debug, .spacing, s!"[RATE] Sleeping {TimeNumber.millisText delay}ms"⟩
      clock.sleep delay
    | none => return

/-- Waits until the next request may be made. -/
def wait (clock : Clock τ m) (spacing : Spacing τ) : m (Spacing τ) := do
  spacing.pause clock
  spacing.mark clock

/-- Waits, does something, and notes that it is completed, however it ended. -/
def around {α : Type} (clock : Clock τ m) (spacing : Spacing τ) (body : m α) :
    m (α × Spacing τ) := do
  let spacing ← spacing.wait clock
  let result ← body
  let spacing ← spacing.mark clock
  return (result, spacing)

end Spacing

end CandleHistory
