import CandleHistory.Paging.Plan
import CandleHistory.Paging.Request
import CandleHistory.Paging.Series
import CandleHistory.Paging.Spacing

/-!
Fetching a range chunk by chunk. Calls are spaced, and a call that fails for a passing reason is
repeated a limited number of times. Any other failure ends the fetch without a series, and so does
a wish to cancel, which is looked for before each call. The world on the other side is a `Venue`:
whatever it answers, the loops end, since one runs over the retries left and the other over the
chunks.
-/

namespace CandleHistory

/-- One call for a page: the bars that open from `start` to `last`, both included. -/
structure PageCall where
  symbol : String
  interval : Interval
  category : Category
  start : Int
  last : Int
  limit : Nat
  deriving DecidableEq, Inhabited, Repr

/-- The world that a fetch works with. -/
structure Venue (τ : Type) (m : Type → Type) extends Clock τ m where
  call : PageCall → m PageAnswer
  /-- Whether someone wishes to cancel the fetch. -/
  cancelRequested : m Bool
  /-- Tells the number of records held; the answer is the reason if that failed. A failure that
  cannot be put in words is not answered: it is one of `m`, and ends the fetch. -/
  report : Nat → m (Option String)

/-- How a fetch ends without a series. -/
inductive Stop where
  | aborted (cause : PageError) (records : Nat)
  | cancelled (records : Nat)
  | broke (fault : Fault)
  deriving Repr

namespace Stop

/-- An abort in words, with the number of records that were held. -/
def abortText (reason : String) (records : Nat) : String :=
  s!"{reason} (records fetched before abort: {records})"

/-- The end of a fetch in words, unless it is a fault. -/
def message? : Stop → Option String
  | aborted cause records => some (abortText cause.message records)
  | cancelled records => some (abortText "Fetch cancelled" records)
  | broke _ => none

end Stop

/-- The start and the end of a chunk as dates and times of day. -/
def Chunk.spanText (chunk : Chunk) : Except Fault String := do
  let start ← (Calendar.civilTextOfMillis chunk.start).mapError .time
  let stop ← (Calendar.civilTextOfMillis chunk.stop).mapError .time
  return s!"{start} to {stop}"

/-- What a fetch is to do: its request, the range in chunks, and how often a call is repeated. -/
structure FetchJob where
  request : Request
  plan : Plan
  maxRetries : Int
  deriving Repr

namespace FetchJob

/-- The most attempts for one chunk. With a negative number of retries there is still one attempt.
-/
def attempts (job : FetchJob) : Int := job.maxRetries + 1

/-- The call for the page of a chunk. -/
def pageCall (job : FetchJob) (chunk : Chunk) : PageCall :=
  { symbol := job.request.symbol
    interval := job.request.interval
    category := job.request.category
    start := chunk.start
    last := chunk.last
    limit := chunk.limit }

variable {τ : Type} [TimeNumber τ] {m : Type → Type} [Monad m]

/-- Writes a log record of the paging loop. -/
def log (venue : Venue τ m) (level : Level) (message : String) : m Unit :=
  venue.log ⟨level, .fetch, message⟩

/-- Looks for a wish to cancel. -/
def cancelled (venue : Venue τ m) : m Bool := do
  let requested ← venue.cancelRequested
  if requested then
    log venue .warning "[FETCH] Cancellation requested, stopping before the next request"
  return requested

/-- Looks for a wish to cancel before every attempt for a page but the first. -/
def cancelledBefore (venue : Venue τ m) (number : Nat) : m Bool :=
  if 1 < number then cancelled venue else pure false

/-- The announcement of an attempt. It fails if the times of the chunk have no date or the number of
attempts cannot be written. -/
def announcement (job : FetchJob) (chunk : Chunk) (number : Nat) : Except Fault String := do
  let span ← chunk.spanText
  let attempts ← Number.integerText job.attempts
  return s!"[FETCH] Fetching data from {span} (chunk size: {chunk.limit}), " ++
    s!"attempt {number}/{attempts}"

/-- Makes an announced call. What could not be announced is not called for. -/
def callAnnounced (venue : Venue τ m) (call : PageCall) : Except Fault String → m PageAnswer
  | .error fault => return .broke fault
  | .ok message => do
    log venue .debug message
    venue.call call

/-- Announces an attempt and makes the call. -/
def announceAndCall (venue : Venue τ m) (job : FetchJob) (chunk : Chunk) (number : Nat) :
    m PageAnswer :=
  callAnnounced venue (job.pageCall chunk) (job.announcement chunk number)

/-- What is noted about an attempt that failed for a passing reason, with some retries left. -/
def failureRecord? (job : FetchJob) (left number : Nat) : PageAnswer → Option LogRecord
  | .failed reason =>
    if reason.isTransient then
      match left with
      | 0 =>
        some ⟨.error, .fetch,
          s!"[FETCH] Chunk failed after {job.attempts} attempts: {reason.message}"⟩
      | _ + 1 =>
        some ⟨.warning, .fetch,
          s!"[FETCH] Attempt {number}/{job.attempts} failed: {reason.message}. Retrying..."⟩
    else none
  | .page _ => none
  | .broke _ => none

/-- Notes a failure, if there is one to note. -/
def logFailure (venue : Venue τ m) : Option LogRecord → m Unit
  | some record => venue.log record
  | none => pure ()

/-- Makes an attempt, and notes if it failed for a passing reason. -/
def attempt (venue : Venue τ m) (job : FetchJob) (chunk : Chunk) (left number : Nat) :
    m PageAnswer := do
  let answer ← announceAndCall venue job chunk number
  logFailure venue (job.failureRecord? left number answer)
  return answer

/-- Fetches the page of a chunk. There are `left` retries after the attempt with this number, and
`held` records are held so far. -/
def fetchPage (venue : Venue τ m) (job : FetchJob) (chunk : Chunk) (held : Nat) :
    Nat → Nat → Spacing τ → m (Except Stop Value × Spacing τ)
  | left, number, spacing => do
    let stopped ← cancelledBefore venue number
    if stopped then return (.error (.cancelled held), spacing)
    else
      let (answer, spacing) ← spacing.around venue.toClock (attempt venue job chunk left number)
      match answer with
      | .page rows => return (.ok rows, spacing)
      | .broke fault => return (.error (.broke fault), spacing)
      | .failed reason =>
        if reason.isTransient then
          match left with
          | 0 => return (.error (.aborted reason held), spacing)
          | left + 1 => fetchPage venue job chunk held left (number + 1) spacing
        else return (.error (.aborted reason held), spacing)

/-- Reads the rows of a page. -/
def readPage (job : FetchJob) (held : Nat) (page : Value) : Except Stop (List Candle) :=
  match page.elements? with
  | none => .error (.broke .pageNotIterable)
  | some rows =>
    match Row.readAll job.request.interval rows with
    | .ok candles => .ok candles
    | .refused reason => .error (.aborted (.malformed reason) held)
    | .infiniteStart => .error (.broke .infiniteStart)

/-- Fetches the candles of a chunk. -/
def fetchChunk (venue : Venue τ m) (job : FetchJob) (chunk : Chunk) (held : Nat)
    (spacing : Spacing τ) : m (Except Stop (List Candle) × Spacing τ) := do
  let (page, spacing) ← fetchPage venue job chunk held job.maxRetries.toNat 1 spacing
  return (page.bind (job.readPage held), spacing)

/-- Notes that a chunk, given by its span in words, holds no candles. -/
def logNoData (venue : Venue τ m) : Except Fault String → m Unit
  | .ok span => log venue .info s!"[FETCH] No data from {span}."
  | .error _ => pure ()

/-- Notes that records of a page were not kept, if there is a message that says so. -/
def logSkipped (venue : Venue τ m) : Option String → m Unit
  | some message => venue.log ⟨.debug, .series, message⟩
  | none => pure ()

/-- Reports the number of records that are held. A report that fails is only noted. -/
def reportHeld (venue : Venue τ m) (held : Nat) : m Unit := do
  match ← venue.report held with
  | some reason => log venue .warning s!"[FETCH] Progress sink error: {reason}"
  | none => pure ()

/-- Merges the candles of a chunk into the series, and reports what became of them. -/
def absorb (venue : Venue τ m) (chunk : Chunk) (candles : List Candle) (series : Series Candle) :
    m (Series Candle) := do
  if candles.isEmpty then logNoData venue chunk.spanText
  logSkipped venue (series.skippedMessage? candles)
  let grown := series.add candles
  log venue .debug
    (s!"[FETCH] Retrieved {candles.length} records in this chunk, " ++
      s!"kept {series.countKept candles}. Total so far: {grown.size}")
  reportHeld venue grown.size
  return grown

/-- Fetches chunk after chunk, beginning with the one that starts at a given instant, until the
range or the cap is exhausted. There are at most as many chunks as the first argument says. -/
def fetchFrom (venue : Venue τ m) (job : FetchJob) :
    Nat → Option Int → Series Candle → Spacing τ → m (Except Stop (Series Candle) × Spacing τ)
  | _, none, series, spacing => return (.ok series, spacing)
  | 0, some _, series, spacing => return (.ok series, spacing)
  | fuel + 1, some start, series, spacing => do
    if series.isFull then
      log venue .info s!"[FETCH] Reached maximum record limit of {series.cap}."
      return (.ok series, spacing)
    else
      let stopped ← cancelled venue
      if stopped then return (.error (.cancelled series.size), spacing)
      else
        let chunk := job.plan.chunkAt start
        let (answer, spacing) ← fetchChunk venue job chunk series.size spacing
        match answer with
        | .error stop => return (.error stop, spacing)
        | .ok candles =>
          let series ← absorb venue chunk candles series
          fetchFrom venue job fuel (job.plan.after? start) series spacing

/-- What is reported when a fetch begins. -/
def headline (job : FetchJob) : Except Fault String := do
  let request := job.request
  let bars ← Number.integerText job.plan.expectedBars
  let limit ← Number.integerText request.limit
  return s!"[FETCH] {request.symbol} {request.category.code} interval={request.interval.code}: " ++
    s!"~{bars} bars expected, per-call limit {limit}"

/-- Writes a log record, if its message can be had. -/
def logMessage (venue : Venue τ m) (level : Level) (source : Source) :
    Except Fault String → m (Option Fault)
  | .error fault => return some fault
  | .ok message => do
    venue.log ⟨level, source, message⟩
    return none

/-- Reports that a fetch begins, and then how its range is split. The answer is the fault that
stands in the way, if there is one. -/
def announce (venue : Venue τ m) (job : FetchJob) : m (Option Fault) := do
  match ← logMessage venue .info .fetch job.headline with
  | some fault => return some fault
  | none => logMessage venue .debug .plan job.plan.openingMessage

/-- Tells how the chunks came out, and hands out the earliest records. -/
def conclude (venue : Venue τ m) (job : FetchJob) :
    Except Stop (Series Candle) → m (Except Stop (List Candle))
  | .ok series => do
    let candles := series.result
    log venue .info s!"[FETCH] Completed: {candles.length} records"
    return .ok candles
  | .error (.aborted cause held) => do
    log venue .error s!"[FETCH] Aborting {job.request.symbol}: {cause.message}"
    return .error (.aborted cause held)
  | .error stop => return .error stop

/-- Fetches all chunks into an empty series. -/
def run (venue : Venue τ m) (job : FetchJob) (series : Series Candle) (spacing : Spacing τ) :
    m (Except Stop (List Candle) × Spacing τ) := do
  match ← announce venue job with
  | some fault => return (.error (.broke fault), spacing)
  | none =>
    let (answer, spacing) ←
      fetchFrom venue job job.plan.range.length job.plan.first? series spacing
    return (← conclude venue job answer, spacing)

end FetchJob

/-- Fetches every candle of a range, in ascending order, up to the earliest `maxRecords` of them.
-/
def fetch {τ : Type} [TimeNumber τ] {m : Type → Type} [Monad m] (venue : Venue τ m)
    (maxRetries : Int) (request : Request) (range : DateRange) (maxRecords : Int)
    (spacing : Spacing τ) : m (Except Stop (List Candle) × Spacing τ) :=
  match Plan.make range request.interval request.limit with
  | .error reason => return (.error (.broke (.bound reason)), spacing)
  | .ok plan =>
    match Series.make Candle maxRecords with
    | .error reason => return (.error (.broke (.bound reason)), spacing)
    | .ok series => FetchJob.run venue ⟨request, plan, maxRetries⟩ series spacing

end CandleHistory
