import CandleHistory.Proofs.Coupling

/-!
What a fetch does that others can see, as a transcript, and the runs of a fetch as relations on
transcripts. The relations leave out the clock, the pauses and the log: they say which events may
follow on which, and what comes of them.
-/

namespace CandleHistory

/-- Something that a fetch does and others can see. -/
inductive Event where
  | called (call : PageCall) (answer : PageAnswer)
  | reported (held : Nat)

/-- What happened so far, the earliest event first. -/
abbrev Transcript := List Event

namespace Event

def call? : Event → Option PageCall
  | called call _ => some call
  | reported _ => none

def report? : Event → Option Nat
  | called .. => none
  | reported held => some held

end Event

namespace Transcript

def calls (transcript : Transcript) : List PageCall := transcript.filterMap Event.call?

def reports (transcript : Transcript) : List Nat := transcript.filterMap Event.report?

@[simp] theorem calls_append (first second : Transcript) :
    calls (first ++ second) = first.calls ++ second.calls := List.filterMap_append

@[simp] theorem reports_append (first second : Transcript) :
    reports (first ++ second) = first.reports ++ second.reports := List.filterMap_append

end Transcript

/-- What may come up in a run: the answers to a call, and whether it is found after a transcript
that someone wishes to cancel. -/
structure Conduct where
  answers : PageCall → PageAnswer → Prop
  wishes : Transcript → Bool → Prop

namespace FetchJob

/-- An attempt that is not cancelled beforehand, can be announced, and is answered. -/
structure Attempted (conduct : Conduct) (job : FetchJob) (chunk : Chunk) (number : Nat)
    (before : Transcript) (answer : PageAnswer) : Prop where
  unstopped : 1 < number → conduct.wishes before false
  announced : ∃ message, job.announcement chunk number = .ok message
  answered : conduct.answers (job.pageCall chunk) answer

/-- The ways in which a chunk's page is fetched, with some retries left and from an attempt with a
given number on: what the transcript was before and after, and what came of it. -/
inductive PageRun (conduct : Conduct) (job : FetchJob) (chunk : Chunk) (held : Nat) :
    Nat → Nat → Transcript → Except Stop Value → Transcript → Prop
  | cancelled {retries number before} :
      1 < number → conduct.wishes before true →
      PageRun conduct job chunk held retries number before (.error (.cancelled held)) before
  | unannounced {retries number before fault} :
      (1 < number → conduct.wishes before false) →
      job.announcement chunk number = .error fault →
      PageRun conduct job chunk held retries number before (.error (.broke fault)) before
  | answered {retries number before rows} :
      job.Attempted conduct chunk number before (.page rows) →
      PageRun conduct job chunk held retries number before (.ok rows)
        (before ++ [.called (job.pageCall chunk) (.page rows)])
  | broke {retries number before fault} :
      job.Attempted conduct chunk number before (.broke fault) →
      PageRun conduct job chunk held retries number before (.error (.broke fault))
        (before ++ [.called (job.pageCall chunk) (.broke fault)])
  | refused {retries number before reason} :
      job.Attempted conduct chunk number before (.failed reason) →
      reason.isTransient = false →
      PageRun conduct job chunk held retries number before (.error (.aborted reason held))
        (before ++ [.called (job.pageCall chunk) (.failed reason)])
  | exhausted {number before reason} :
      job.Attempted conduct chunk number before (.failed reason) →
      reason.isTransient = true →
      PageRun conduct job chunk held 0 number before (.error (.aborted reason held))
        (before ++ [.called (job.pageCall chunk) (.failed reason)])
  | retried {retries number before reason result after} :
      job.Attempted conduct chunk number before (.failed reason) →
      reason.isTransient = true →
      PageRun conduct job chunk held retries (number + 1)
        (before ++ [.called (job.pageCall chunk) (.failed reason)]) result after →
      PageRun conduct job chunk held (retries + 1) number before result after

/-- The ways in which chunk after chunk is fetched, with some chunks allowed and from a given start
on. -/
inductive Run (conduct : Conduct) (job : FetchJob) :
    Nat → Option Int → Series Candle → Transcript → Except Stop (Series Candle) → Transcript → Prop
  | finished {fuel series before} :
      Run conduct job fuel none series before (.ok series) before
  | spent {start series before} :
      Run conduct job 0 (some start) series before (.ok series) before
  | full {fuel start series before} :
      series.isFull = true →
      Run conduct job (fuel + 1) (some start) series before (.ok series) before
  | cancelled {fuel start series before} :
      series.isFull = false → conduct.wishes before true →
      Run conduct job (fuel + 1) (some start) series before (.error (.cancelled series.size)) before
  | failed {fuel start series before stop after} :
      series.isFull = false → conduct.wishes before false →
      PageRun conduct job (job.plan.chunkAt start) series.size job.maxRetries.toNat 1 before
        (.error stop) after →
      Run conduct job (fuel + 1) (some start) series before (.error stop) after
  | unreadable {fuel start series before page stop after} :
      series.isFull = false → conduct.wishes before false →
      PageRun conduct job (job.plan.chunkAt start) series.size job.maxRetries.toNat 1 before
        (.ok page) after →
      job.readPage series.size page = .error stop →
      Run conduct job (fuel + 1) (some start) series before (.error stop) after
  | absorbed {fuel start series before page candles between result after} :
      series.isFull = false → conduct.wishes before false →
      PageRun conduct job (job.plan.chunkAt start) series.size job.maxRetries.toNat 1 before
        (.ok page) between →
      job.readPage series.size page = .ok candles →
      Run conduct job fuel (job.plan.after? start) (series.add candles)
        (between ++ [.reported (series.add candles).size]) result after →
      Run conduct job (fuel + 1) (some start) series before result after

end FetchJob

end CandleHistory
