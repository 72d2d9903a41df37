import CandleHistory.Market.Candle

/-!
The running series of a fetch. Pages come in any order and may repeat what is there already. A
page is put in ascending order, and of it only what lies after the end of the series is kept, once
for each time. The series may grow past its cap; only the earliest records up to the cap are
handed out.
-/

namespace CandleHistory

/-- Data that have a place on the time line. -/
class Timed (α : Type) where
  openTime : α → Int

instance : Timed Candle := ⟨Candle.openTime⟩

export Timed (openTime)

variable {α : Type} [Timed α]

/-- Puts a record into an ascending list, after those that have the same time. -/
def insertInOrder (x : α) : List α → List α
  | [] => [x]
  | y :: ys => if openTime y ≤ openTime x then y :: insertInOrder x ys else x :: y :: ys

/-- Records in ascending order; those with the same time keep their order. On a page that comes
newest first, every record goes to the front at once. -/
def sortByTime (page : List α) : List α :=
  page.foldl (fun sorted x => insertInOrder x sorted) []

/-- Keeps what lies after a time, and after all that is kept before it. -/
def keepLater : Option Int → List α → List α
  | _, [] => []
  | none, x :: xs => x :: keepLater (some (openTime x)) xs
  | some tail, x :: xs =>
    if openTime x ≤ tail then keepLater (some tail) xs
    else x :: keepLater (some (openTime x)) xs

/-- The part of a page that extends a series that ends at `tail`, in ascending order. Of several
records with one time, the first one of the page is kept. -/
def mergePage (tail : Option Int) (page : List α) : List α :=
  keepLater tail (sortByTime page)

/-- The records collected so far, in ascending order, and the most that will be handed out. -/
structure Series (α : Type) where
  cap : Nat
  kept : List α := []
  cap_pos : 0 < cap := by omega
  deriving Repr

namespace Series

/-- An empty series with a given cap, which must be positive. -/
def make (α : Type) (cap : Int) : Except BoundError (Series α) :=
  if h : 0 < cap.toNat then .ok ⟨cap.toNat, [], h⟩ else .error (.maxRecords cap)

/-- The number of records that would be handed out now. -/
def size (series : Series α) : Nat := min series.kept.length series.cap

/-- The time of the last record. -/
def tail? (series : Series α) : Option Int := series.kept.getLast?.map openTime

/-- Whether no more records are needed. -/
def isFull (series : Series α) : Bool := series.cap ≤ series.kept.length

/-- Merges a page into the series. -/
def add (series : Series α) (page : List α) : Series α :=
  { series with kept := series.kept ++ mergePage series.tail? page }

/-- How many records of a page would be kept. -/
def countKept (series : Series α) (page : List α) : Nat := (mergePage series.tail? page).length

/-- The earliest records, up to the cap. -/
def result (series : Series α) : List α := series.kept.take series.cap

/-- The series without its records. -/
def reset (series : Series α) : Series α := { series with kept := [] }

/-- What is reported about the records of a page that were not kept, if there are any. -/
def skippedMessage? (series : Series α) (page : List α) : Option String :=
  let skipped := page.length - series.countKept page
  if skipped = 0 then none
  else some s!"[ASSEMBLE] Skipped {skipped} duplicate candle(s) at chunk boundary"

end Series

end CandleHistory
