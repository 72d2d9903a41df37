import CandleHistory.Fault
import CandleHistory.Paging.DateRange

/-!
The split of a range into chunks, each small enough for one request. A chunk spans as many bars as
a request may return. Neighbours share one bar, so that a bar on the boundary is seen twice and
not missed; with one bar to a chunk there is nothing to share. The chunks are found one by one,
since a range may have more of them than can be listed. Whoever begins to go through them is told of
the split first, so there are no chunks at all if the numbers of the split cannot be written.
-/

namespace CandleHistory

/-- A part of a range, for one request of at most `limit` bars. -/
structure Chunk where
  start : Int
  stop : Int
  limit : Nat
  deriving DecidableEq, Inhabited, Repr

/-- The last instant of a chunk; the exchange includes it in the answer. -/
def Chunk.last (chunk : Chunk) : Int := chunk.stop - 1

/-- How a range is to be split: the width of a bar and the most bars in a chunk. -/
structure Plan where
  range : DateRange
  interval : Interval
  cap : Nat
  cap_pos : 0 < cap := by omega
  deriving Repr

namespace Plan

/-- The plan with a given cap, which must be positive. -/
def make (range : DateRange) (interval : Interval) (cap : Int) : Except BoundError Plan :=
  if h : 0 < cap.toNat then .ok ⟨range, interval, cap.toNat, h⟩ else .error (.recordCap cap)

/-- The time that a full chunk spans. -/
def span (plan : Plan) : Nat := plan.cap * plan.interval.width

/-- The time from the start of a chunk to the start of the next one. -/
def step (plan : Plan) : Nat :=
  if plan.cap = 1 then plan.interval.width else (plan.cap - 1) * plan.interval.width

theorem step_pos (plan : Plan) : 0 < plan.step := by
  have hw := plan.interval.width_pos
  have hc := plan.cap_pos
  unfold step
  split
  · exact hw
  · exact Nat.mul_pos (by omega) hw

/-- Where the first chunk starts, if there is one. -/
def first? (plan : Plan) : Option Int :=
  if plan.range.start < plan.range.stop then some plan.range.start else none

/-- The chunk that starts at a given instant. -/
def chunkAt (plan : Plan) (start : Int) : Chunk :=
  ⟨start, min (start + plan.span) plan.range.stop, plan.cap⟩

/-- Where the next chunk starts, if the one at `start` does not reach the end of the range. -/
def after? (plan : Plan) (start : Int) : Option Int :=
  if (plan.chunkAt start).stop < plan.range.stop then some (start + plan.step) else none

/-- Up to `count` chunks from a given start, and where the next one starts. -/
def take (plan : Plan) : Nat → Option Int → List Chunk × Option Int
  | _, none => ([], none)
  | 0, some start => ([], some start)
  | count + 1, some start =>
    let (chunks, next) := plan.take count (plan.after? start)
    (plan.chunkAt start :: chunks, next)

/-- All chunks of the split, in order. Each starts after the one before it, so there are no more of
them than there are instants in the range. -/
def chunks (plan : Plan) : List Chunk := (plan.take plan.range.length plan.first?).1

/-- What is reported when someone begins to go through the chunks. -/
def openingMessage (plan : Plan) : Except Fault String := do
  let start ← Number.integerText plan.range.start
  let stop ← Number.integerText plan.range.stop
  let cap ← Number.integerText plan.cap
  return s!"[CHUNK] Splitting [{start}, {stop}) into spans of {cap} x {plan.interval.code}"

/-- Begins to go through the chunks: where the first one starts, if there is one. -/
def cursor (plan : Plan) : Except Fault (Option Int) :=
  plan.openingMessage.map fun _ => plan.first?

/-- Counts the chunks from a given start, on top of those counted before. -/
def countFrom (plan : Plan) : Nat → Option Int → Nat → Nat
  | _, none, counted => counted
  | 0, some _, counted => counted
  | fuel + 1, some start, counted => plan.countFrom fuel (plan.after? start) (counted + 1)

/-- The largest count that a machine word holds. -/
def largestCount : Nat := Number.twoPow 63 - 1

/-- The number of chunks, found by going through them. -/
def size (plan : Plan) : Except Fault Nat := do
  let next ← plan.cursor
  let counted := plan.countFrom plan.range.length next 0
  if counted ≤ largestCount then return counted else throw .countTooLarge

/-- The number of bars that a range without gaps has. -/
def expectedBars (plan : Plan) : Nat :=
  (plan.range.length + plan.interval.width - 1) / plan.interval.width

end Plan

end CandleHistory
