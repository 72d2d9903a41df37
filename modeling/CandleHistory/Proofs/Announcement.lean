import CandleHistory.Paging.Fetch
import CandleHistory.Proofs.CalendarTime
import CandleHistory.Proofs.Chunks
import CandleHistory.Proofs.Numerals

/-!
When a fetch and its attempts can be announced. The announcement of a fetch gives the number of bars
and the ends of the range as digits. That of an attempt names the two ends of the chunk as dates and
the number of attempts as digits. In a range that lies in the calendar neither the digits of its
ends nor the dates are a hindrance, so it is the number of attempts alone that decides.
-/

namespace CandleHistory

open Calendar (Instant)

/-- Both ends of a range have a date in the years 1 to 9999. -/
def DateRange.InCalendar (range : DateRange) : Prop :=
  1000 * Instant.firstSecond ≤ range.start ∧ range.stop < 1000 * Instant.endSecond

namespace Plan

variable {plan : Plan}

/-- A range has far fewer bars than instants, so their number is no longer than its ends. -/
theorem expectedBars_lt_integerBound (h : plan.Announceable) :
    plan.expectedBars < Number.integerBound := by
  obtain ⟨hstart, hstop, -⟩ := h
  have hwidth : 3 ≤ plan.interval.width := by cases plan.interval <;> decide
  have hlength : plan.range.length < 2 * Number.integerBound := by
    unfold DateRange.length
    omega
  have hten : 10 < Number.integerBound :=
    Number.lt_integerBound_of_lt_twoPow (by decide)
  obtain ⟨bound, hbound⟩ : ∃ bound, Number.integerBound = bound + 1 :=
    ⟨Number.integerBound - 1, by omega⟩
  have hscaled : 3 * bound ≤ plan.interval.width * bound := Nat.mul_le_mul_right _ hwidth
  unfold expectedBars
  rw [Nat.div_lt_iff_lt_mul plan.interval.width_pos, Nat.mul_comm, hbound, Nat.mul_succ]
  omega

/-- In the calendar, the ends of a range are short. -/
theorem announceable_of_inCalendar (hrange : plan.range.InCalendar)
    (hcap : plan.cap ≤ largestPage) : plan.Announceable := by
  obtain ⟨hfirst, hend⟩ := hrange
  have horder := plan.range.start_le_stop
  rw [Calendar.Instant.firstSecond_eq] at hfirst
  rw [Calendar.Instant.endSecond_eq] at hend
  have hbound : 1000000000000000000 ≤ Number.twoPow 60 := by decide
  have hpage : largestPage = 1000 := rfl
  refine ⟨?_, ?_, ?_⟩ <;> apply Number.lt_integerBound_of_lt_twoPow <;> omega

theorem announceable_of_make {request : Request} {range : DateRange}
    (h : Plan.make range request.interval request.limit = .ok plan) (hrange : range.InCalendar) :
    plan.Announceable := by
  have hlimit := request.limit_le
  unfold Plan.make at h
  split at h
  · cases h
    apply announceable_of_inCalendar hrange
    change request.limit.toNat ≤ largestPage
    omega
  · cases h

end Plan

/-- The number of attempts is short enough to be written. -/
def FetchJob.Announceable (job : FetchJob) : Prop := job.attempts.natAbs < Number.integerBound

theorem Chunk.spanText_isOk {chunk : Chunk} (hfirst : 1000 * Instant.firstSecond ≤ chunk.start)
    (horder : chunk.start ≤ chunk.stop) (hend : chunk.stop < 1000 * Instant.endSecond) :
    ∃ span, chunk.spanText = .ok span := by
  obtain ⟨start, hstart⟩ := Calendar.civilTextOfMillis_isOk hfirst (by omega)
  obtain ⟨stop, hstop⟩ := Calendar.civilTextOfMillis_isOk (by omega) hend
  refine ⟨s!"{start} to {stop}", ?_⟩
  unfold Chunk.spanText
  rw [hstart, hstop]
  rfl

/-- The ends of every chunk of a range in the calendar can be written. -/
theorem Plan.Within.spanText_isOk {plan : Plan} {fuel : Nat} {start : Int}
    (h : plan.Within fuel (some start)) (hrange : plan.range.InCalendar) :
    ∃ span, (plan.chunkAt start).spanText = .ok span := by
  obtain ⟨hlower, hupper, -⟩ := h start rfl
  obtain ⟨hfirst, hend⟩ := hrange
  have horder := Plan.chunkAt_start_lt_stop hupper
  have hstop := plan.chunkAt_stop_le start
  apply Chunk.spanText_isOk
  · exact Int.le_trans hfirst hlower
  · exact Int.le_of_lt horder
  · exact Int.lt_of_le_of_lt hstop hend

namespace FetchJob

theorem announcement_of_announceable {job : FetchJob} {chunk : Chunk} {span : String}
    (hspan : chunk.spanText = .ok span) (hjob : job.Announceable) (number : Nat) :
    ∃ message, job.announcement chunk number = .ok message := by
  unfold announcement
  rw [hspan, Number.integerText_of_lt hjob]
  exact ⟨_, rfl⟩

theorem announcement_of_not_announceable {job : FetchJob} {chunk : Chunk} {span : String}
    (hspan : chunk.spanText = .ok span) (hjob : ¬ job.Announceable) (number : Nat) :
    job.announcement chunk number = .error .tooManyDigits := by
  unfold announcement
  rw [hspan, Number.integerText_of_not_lt hjob]
  rfl

/-- Either all attempts for a chunk can be announced, or none, for one and the same reason. -/
theorem announcement_cases (job : FetchJob) (chunk : Chunk) :
    (∀ number, ∃ message, job.announcement chunk number = .ok message) ∨
      ∃ fault, ∀ number, job.announcement chunk number = .error fault := by
  cases hspan : chunk.spanText with
  | error fault =>
      refine Or.inr ⟨fault, fun number => ?_⟩
      unfold announcement
      rw [hspan]
      rfl
  | ok span =>
      by_cases hjob : job.Announceable
      · exact Or.inl (announcement_of_announceable hspan hjob)
      · exact Or.inr ⟨_, announcement_of_not_announceable hspan hjob⟩

theorem headline_cases (job : FetchJob) :
    (∃ message, job.headline = .ok message) ∨
      ¬ job.plan.Announceable ∧ job.headline = .error .tooManyDigits := by
  have hpositive := job.request.one_le_limit
  have hsmall := job.request.limit_le
  have hpage : largestPage < Number.twoPow 60 := by decide
  have hlimit : job.request.limit.natAbs < Number.integerBound := by
    apply Number.lt_integerBound_of_lt_twoPow
    omega
  unfold headline
  dsimp only
  by_cases hbars : (job.plan.expectedBars : Int).natAbs < Number.integerBound
  · rw [Number.integerText_of_lt hbars, Number.integerText_of_lt hlimit]
    exact Or.inl ⟨_, rfl⟩
  · rw [Number.integerText_of_not_lt hbars]
    exact Or.inr ⟨fun hplan => hbars (Plan.expectedBars_lt_integerBound hplan), rfl⟩

variable {τ : Type} [TimeNumber τ] {m : Type → Type} [Monad m] [LawfulMonad m] {job : FetchJob}

/-- A fetch that can be announced reports its beginning and its split, and goes on to its chunks. -/
theorem run_of_announceable (h : job.plan.Announceable) (venue : Venue τ m)
    (series : Series Candle) (spacing : Spacing τ) :
    ∃ headline opening : LogRecord, job.run venue series spacing = do
      venue.log headline
      venue.log opening
      let (answer, spacing) ←
        job.fetchFrom venue job.plan.range.length job.plan.first? series spacing
      return (← job.conclude venue answer, spacing) := by
  obtain ⟨opening, hopening⟩ := Plan.openingMessage_of_announceable h
  rcases job.headline_cases with ⟨headline, hheadline⟩ | ⟨hlong, -⟩
  · refine ⟨⟨.info, .fetch, headline⟩, ⟨.debug, .plan, opening⟩, ?_⟩
    unfold run announce
    rw [hheadline, hopening]
    simp [logMessage]
  · exact absurd h hlong

/-- A fetch that cannot be announced ends before its first chunk; at most its beginning is reported.
-/
theorem run_of_not_announceable (h : ¬ job.plan.Announceable) (venue : Venue τ m)
    (series : Series Candle) (spacing : Spacing τ) :
    job.run venue series spacing = pure (.error (.broke .tooManyDigits), spacing) ∨
      ∃ headline : LogRecord, job.run venue series spacing = do
        venue.log headline
        return (.error (.broke .tooManyDigits), spacing) := by
  have hopening := Plan.openingMessage_of_not_announceable h
  rcases job.headline_cases with ⟨headline, hheadline⟩ | ⟨-, hheadline⟩
  · refine Or.inr ⟨⟨.info, .fetch, headline⟩, ?_⟩
    unfold run announce
    rw [hheadline, hopening]
    simp [logMessage]
  · refine Or.inl ?_
    unfold run announce
    rw [hheadline]
    simp [logMessage]

end FetchJob

end CandleHistory
