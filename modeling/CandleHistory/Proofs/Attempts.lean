import CandleHistory.Proofs.Announcement
import CandleHistory.Proofs.Transcript

/-!
How the page of a chunk is had when nobody cancels. Some attempts fail for passing reasons, and the
one after them decides what comes of the chunk; it may fail for a passing reason as well, but then
there are no retries left.
-/

namespace CandleHistory

namespace PageAnswer

/-- Whether an answer asks for another attempt. -/
def isTransient : PageAnswer → Bool
  | failed reason => reason.isTransient
  | page _ => false
  | broke _ => false

/-- What comes of a chunk that an answer decides. -/
def outcome (held : Nat) : PageAnswer → Except Stop Value
  | page rows => .ok rows
  | failed reason => .error (.aborted reason held)
  | broke fault => .error (.broke fault)

end PageAnswer

/-- The answers to the attempts for a chunk: those that ask for another attempt, and the final one.
-/
structure Attempts (conduct : Conduct) (call : PageCall) (retries : Nat) where
  failures : List PageAnswer
  final : PageAnswer
  transient : ∀ failure ∈ failures, failure.isTransient = true
  answered : ∀ answer ∈ failures ++ [final], conduct.answers call answer
  length_le : failures.length ≤ retries
  exhausted : final.isTransient = true → failures.length = retries

namespace Attempts

variable {conduct : Conduct} {call : PageCall} {retries : Nat}

/-- What the attempts leave in the transcript. -/
def events (attempts : Attempts conduct call retries) : Transcript :=
  (attempts.failures ++ [attempts.final]).map (Event.called call)

theorem exists_events_eq_cons (attempts : Attempts conduct call retries) :
    ∃ answer rest, attempts.events = .called call answer :: rest := by
  unfold events
  cases attempts.failures with
  | nil => exact ⟨_, _, rfl⟩
  | cons failure failures => exact ⟨_, _, rfl⟩

/-- A single attempt that decides. -/
def single (answer : PageAnswer) (hanswer : conduct.answers call answer)
    (hlast : answer.isTransient = true → retries = 0) : Attempts conduct call retries where
  failures := []
  final := answer
  transient := fun failure hfailure => nomatch hfailure
  answered := by
    intro other hother
    rw [List.mem_singleton.mp hother]
    exact hanswer
  length_le := Nat.zero_le _
  exhausted h := (hlast h).symm

/-- Attempts with another one before them that failed. -/
def cons (failure : PageAnswer) (hfailure : failure.isTransient = true)
    (hanswer : conduct.answers call failure) (attempts : Attempts conduct call retries) :
    Attempts conduct call (retries + 1) where
  failures := failure :: attempts.failures
  final := attempts.final
  transient := List.forall_mem_cons.mpr ⟨hfailure, attempts.transient⟩
  answered := List.forall_mem_cons.mpr ⟨hanswer, attempts.answered⟩
  length_le := Nat.succ_le_succ attempts.length_le
  exhausted h := congrArg Nat.succ (attempts.exhausted h)

end Attempts

namespace FetchJob

variable {conduct : Conduct} {job : FetchJob}

theorem PageRun.prefix {chunk : Chunk} {held retries number : Nat} {before after : Transcript}
    {result : Except Stop Value}
    (h : PageRun conduct job chunk held retries number before result after) : before <+: after := by
  induction h with
  | cancelled hnumber hwish => exact List.prefix_rfl
  | unannounced hwish hfault => exact List.prefix_rfl
  | answered hattempt => exact List.prefix_append _ _
  | broke hattempt => exact List.prefix_append _ _
  | refused hattempt htransient => exact List.prefix_append _ _
  | exhausted hattempt htransient => exact List.prefix_append _ _
  | retried hattempt htransient hrun ih => exact (List.prefix_append _ _).trans ih

theorem Run.prefix {fuel : Nat} {next : Option Int} {series : Series Candle}
    {before after : Transcript} {outcome : Except Stop (Series Candle)}
    (h : Run conduct job fuel next series before outcome after) : before <+: after := by
  induction h with
  | finished => exact List.prefix_rfl
  | spent => exact List.prefix_rfl
  | full hfull => exact List.prefix_rfl
  | cancelled hfull hwish => exact List.prefix_rfl
  | failed hfull hwish hpage => exact hpage.prefix
  | unreadable hfull hwish hpage hread => exact hpage.prefix
  | absorbed hfull hwish hpage hread hrun ih =>
      exact hpage.prefix.trans ((List.prefix_append _ _).trans ih)

/-- Without a cancel, and if the attempts can be announced, the page is had by attempts. -/
theorem PageRun.exists_attempts {chunk : Chunk} {held retries number : Nat}
    {before after : Transcript} {result : Except Stop Value}
    (h : PageRun conduct job chunk held retries number before result after)
    (hcalm : ∀ before, ¬ conduct.wishes before true)
    (hannounced : ∀ number, ∃ message, job.announcement chunk number = .ok message) :
    ∃ attempts : Attempts conduct (job.pageCall chunk) retries,
      result = attempts.final.outcome held ∧ after = before ++ attempts.events := by
  induction h with
  | cancelled hnumber hwish => exact absurd hwish (hcalm _)
  | @unannounced retries number before fault hwish hfault =>
      obtain ⟨message, hmessage⟩ := hannounced number
      rw [hmessage] at hfault
      cases hfault
  | answered hattempt => exact ⟨.single _ hattempt.answered nofun, rfl, rfl⟩
  | broke hattempt => exact ⟨.single _ hattempt.answered nofun, rfl, rfl⟩
  | @refused retries number before reason hattempt htransient =>
      have hlast : (PageAnswer.failed reason).isTransient = true → retries = 0 := by
        intro h
        rw [PageAnswer.isTransient, htransient] at h
        cases h
      exact ⟨.single _ hattempt.answered hlast, rfl, rfl⟩
  | exhausted hattempt htransient =>
      exact ⟨.single _ hattempt.answered fun _ => rfl, rfl, rfl⟩
  | @retried retries number before reason result after hattempt htransient hrun ih =>
      obtain ⟨attempts, hresult, hafter⟩ := ih
      refine ⟨attempts.cons (.failed reason) htransient hattempt.answered, hresult, ?_⟩
      rw [hafter, List.append_assoc]
      rfl

/-- What comes of the page that the attempts for a chunk end up with. -/
def chunkResult (job : FetchJob) (held : Nat) (answer : PageAnswer) : Except Stop (List Candle) :=
  (answer.outcome held).bind (job.readPage held)

/-- What follows on the attempts for a chunk: they end the run, or their candles are merged and
reported and the run goes on. -/
inductive Aftermath (conduct : Conduct) (job : FetchJob) (fuel : Nat) (start : Int)
    (series : Series Candle) (before : Transcript)
    (attempts : Attempts conduct (job.pageCall (job.plan.chunkAt start)) job.maxRetries.toNat)
    (outcome : Except Stop (Series Candle)) (after : Transcript) : Prop
  | stopped {stop} :
      job.chunkResult series.size attempts.final = .error stop →
      outcome = .error stop → after = before ++ attempts.events →
      Aftermath conduct job fuel start series before attempts outcome after
  | merged {candles} :
      job.chunkResult series.size attempts.final = .ok candles →
      Run conduct job fuel (job.plan.after? start) (series.add candles)
        (before ++ attempts.events ++ [.reported (series.add candles).size]) outcome after →
      Aftermath conduct job fuel start series before attempts outcome after

theorem Aftermath.prefix {fuel : Nat} {start : Int} {series : Series Candle}
    {before after : Transcript} {outcome : Except Stop (Series Candle)}
    {attempts : Attempts conduct (job.pageCall (job.plan.chunkAt start)) job.maxRetries.toNat}
    (h : Aftermath conduct job fuel start series before attempts outcome after) :
    before ++ attempts.events <+: after := by
  cases h with
  | stopped hstop houtcome hafter => exact hafter ▸ List.prefix_rfl
  | merged hcandles hrun => exact (List.prefix_append _ _).trans hrun.prefix

/-- Without a cancel, and if the attempts can be announced, a run that has a chunk to fetch makes
the attempts for it. -/
theorem Run.exists_attempts {fuel : Nat} {start : Int} {series : Series Candle}
    {before after : Transcript} {outcome : Except Stop (Series Candle)}
    (h : Run conduct job (fuel + 1) (some start) series before outcome after)
    (hroom : series.isFull = false) (hcalm : ∀ before, ¬ conduct.wishes before true)
    (hannounced : ∀ number, ∃ message,
      job.announcement (job.plan.chunkAt start) number = .ok message) :
    ∃ attempts, Aftermath conduct job fuel start series before attempts outcome after := by
  cases h with
  | full hfull =>
      rw [hroom] at hfull
      cases hfull
  | cancelled hfull hwish => exact absurd hwish (hcalm before)
  | failed hfull hwish hpage =>
      obtain ⟨attempts, hresult, hafter⟩ := hpage.exists_attempts hcalm hannounced
      refine ⟨attempts, .stopped ?_ rfl hafter⟩
      unfold chunkResult
      rw [← hresult]
      rfl
  | unreadable hfull hwish hpage hread =>
      obtain ⟨attempts, hresult, hafter⟩ := hpage.exists_attempts hcalm hannounced
      refine ⟨attempts, .stopped ?_ rfl hafter⟩
      unfold chunkResult
      rw [← hresult]
      exact hread
  | absorbed hfull hwish hpage hread hrun =>
      obtain ⟨attempts, hresult, rfl⟩ := hpage.exists_attempts hcalm hannounced
      refine ⟨attempts, .merged ?_ hrun⟩
      unfold chunkResult
      rw [← hresult]
      exact hread

theorem PageRun.of_unannounced {chunk : Chunk} {held retries number : Nat}
    {before after : Transcript} {result : Except Stop Value} {fault : Fault}
    (h : PageRun conduct job chunk held retries number before result after)
    (hcalm : ¬ conduct.wishes before true)
    (hfault : job.announcement chunk number = .error fault) :
    result = .error (.broke fault) ∧ after = before := by
  have hsilent : ∀ {answer}, ¬ Attempted conduct job chunk number before answer := by
    intro answer hattempt
    obtain ⟨message, hmessage⟩ := hattempt.announced
    rw [hfault] at hmessage
    cases hmessage
  cases h with
  | cancelled hnumber hwish => exact absurd hwish hcalm
  | unannounced hwish hother =>
      rw [hfault] at hother
      cases hother
      exact ⟨rfl, rfl⟩
  | answered hattempt => exact absurd hattempt hsilent
  | broke hattempt => exact absurd hattempt hsilent
  | refused hattempt htransient => exact absurd hattempt hsilent
  | exhausted hattempt htransient => exact absurd hattempt hsilent
  | retried hattempt htransient hrun => exact absurd hattempt hsilent

theorem Run.of_none {fuel : Nat} {series : Series Candle}
    {before after : Transcript} {outcome : Except Stop (Series Candle)}
    (h : Run conduct job fuel none series before outcome after) :
    outcome = .ok series ∧ after = before := by
  cases h
  exact ⟨rfl, rfl⟩

theorem Run.of_full {fuel : Nat} {next : Option Int} {series : Series Candle}
    {before after : Transcript} {outcome : Except Stop (Series Candle)}
    (h : Run conduct job fuel next series before outcome after) (hfull : series.isFull = true) :
    outcome = .ok series ∧ after = before := by
  have hroom : ¬ series.isFull = false := by
    rw [hfull]
    exact Bool.noConfusion
  cases h with
  | finished => exact ⟨rfl, rfl⟩
  | spent => exact ⟨rfl, rfl⟩
  | full hfull => exact ⟨rfl, rfl⟩
  | cancelled hempty hwish => exact absurd hempty hroom
  | failed hempty hwish hpage => exact absurd hempty hroom
  | unreadable hempty hwish hpage hread => exact absurd hempty hroom
  | absorbed hempty hwish hpage hread hrun => exact absurd hempty hroom

theorem Run.of_wish {fuel : Nat} {start : Int} {series : Series Candle} {before after : Transcript}
    {outcome : Except Stop (Series Candle)}
    (h : Run conduct job (fuel + 1) (some start) series before outcome after)
    (hroom : series.isFull = false) (hwish : ¬ conduct.wishes before false) :
    outcome = .error (.cancelled series.size) ∧ after = before := by
  cases h with
  | full hfull =>
      rw [hroom] at hfull
      cases hfull
  | cancelled hfull hcancelled => exact ⟨rfl, rfl⟩
  | failed hfull hcalm hpage => exact absurd hcalm hwish
  | unreadable hfull hcalm hpage hread => exact absurd hcalm hwish
  | absorbed hfull hcalm hpage hread hrun => exact absurd hcalm hwish

theorem Run.of_unannounced {fuel : Nat} {start : Int} {series : Series Candle}
    {before after : Transcript} {outcome : Except Stop (Series Candle)} {fault : Fault}
    (h : Run conduct job (fuel + 1) (some start) series before outcome after)
    (hroom : series.isFull = false) (hcalm : ¬ conduct.wishes before true)
    (hfault : job.announcement (job.plan.chunkAt start) 1 = .error fault) :
    outcome = .error (.broke fault) ∧ after = before := by
  cases h with
  | full hfull =>
      rw [hroom] at hfull
      cases hfull
  | cancelled hfull hwish => exact absurd hwish hcalm
  | failed hfull hwish hpage =>
      obtain ⟨hstop, rfl⟩ := hpage.of_unannounced hcalm hfault
      cases hstop
      exact ⟨rfl, rfl⟩
  | unreadable hfull hwish hpage hread =>
      obtain ⟨hstop, -⟩ := hpage.of_unannounced hcalm hfault
      cases hstop
  | absorbed hfull hwish hpage hread hnext =>
      obtain ⟨hstop, -⟩ := hpage.of_unannounced hcalm hfault
      cases hstop

section WholeRange

variable {series : Series Candle} {before after : Transcript}
  {outcome : Except Stop (Series Candle)}
  (h : Run conduct job job.plan.range.length job.plan.first? series before outcome after)

include h

theorem Run.of_isEmpty (hempty : job.plan.range.isEmpty = true) :
    outcome = .ok series ∧ after = before := by
  rw [Plan.first?_of_isEmpty hempty] at h
  exact h.of_none

/-- A run over a range with an instant that someone wishes to cancel from the beginning. -/
theorem Run.of_wish_at_start (hnonempty : job.plan.range.isEmpty = false)
    (hroom : series.isFull = false) (hwish : ¬ conduct.wishes before false) :
    outcome = .error (.cancelled series.size) ∧ after = before := by
  obtain ⟨fuel, hlength⟩ := Plan.exists_length_eq hnonempty
  rw [Plan.first?_of_nonempty hnonempty, hlength] at h
  exact h.of_wish hroom hwish

/-- A run over a range with an instant fails before its first call if the number of attempts has too
many digits. -/
theorem Run.of_not_announceable (hnonempty : job.plan.range.isEmpty = false)
    (hrange : job.plan.range.InCalendar) (hjob : ¬ job.Announceable)
    (hroom : series.isFull = false) (hcalm : ¬ conduct.wishes before true) :
    outcome = .error (.broke .tooManyDigits) ∧ after = before := by
  have hwithin := job.plan.within_first
  obtain ⟨fuel, hlength⟩ := Plan.exists_length_eq hnonempty
  rw [Plan.first?_of_nonempty hnonempty] at h hwithin
  rw [hlength] at h
  obtain ⟨span, hspan⟩ := hwithin.spanText_isOk hrange
  exact h.of_unannounced hroom hcalm (announcement_of_not_announceable hspan hjob 1)

/-- What a run that nobody cancels comes to, given what it hands out if its attempts can be
announced. A range without an instant needs no attempt. -/
theorem Run.result_eq_ite (hrange : job.plan.range.InCalendar) (hroom : series.isFull = false)
    (hcalm : ¬ conduct.wishes before true) {records : List Candle}
    (hempty : job.plan.range.isEmpty = true → series.result = records)
    (hrecords : job.Announceable → outcome.map Series.result = .ok records) :
    outcome.map Series.result =
      if job.plan.range.isEmpty = true ∨ job.attempts.natAbs < Number.integerBound then .ok records
      else .error (.broke .tooManyDigits) := by
  by_cases hjob : job.attempts.natAbs < Number.integerBound
  · rw [if_pos (Or.inr hjob)]
    exact hrecords hjob
  · cases hrangeEmpty : job.plan.range.isEmpty with
    | true =>
        obtain ⟨rfl, -⟩ := h.of_isEmpty hrangeEmpty
        rw [if_pos (Or.inl rfl)]
        exact congrArg Except.ok (hempty hrangeEmpty)
    | false =>
        have hneither : ¬ (false = true ∨ job.attempts.natAbs < Number.integerBound) := by
          rintro (hfalse | hsmall)
          · cases hfalse
          · exact hjob hsmall
        obtain ⟨rfl, -⟩ := h.of_not_announceable hrangeEmpty hrange hjob hroom hcalm
        rw [if_neg hneither]
        rfl

end WholeRange

end FetchJob

end CandleHistory
