import CandleHistory.Proofs.Invariance
import CandleHistory.Proofs.Merging

/-!
Fetches whose attempts cannot be announced. If nobody wishes to cancel up to the first attempt, such
a fetch fails there, before anything is called.
-/

namespace CandleHistory

variable {ρ τ α : Type}

/-- A property of the world in which nobody wishes to cancel, and which the operations of a venue
keep, apart from its calls and reports. -/
structure Venue.Undisturbed (venue : Venue τ (StateM ρ)) (calm : ρ → Prop) : Prop where
  now : Ensures calm venue.now fun _ => calm
  sleep : ∀ delay, Ensures calm (venue.sleep delay) fun _ => calm
  log : ∀ record, Ensures calm (venue.log record) fun _ => calm
  cancelRequested : Ensures calm venue.cancelRequested fun wished state =>
    wished = false ∧ calm state

namespace Venue.Undisturbed

variable {venue : Venue τ (StateM ρ)} {calm : ρ → Prop} (h : venue.Undisturbed calm)
  {job : FetchJob}

include h

theorem cancelled : Ensures calm (FetchJob.cancelled venue) fun stopped state =>
    stopped = false ∧ calm state := by
  unfold FetchJob.cancelled
  refine h.cancelRequested.bind fun requested => ?_
  rintro state ⟨rfl, hcalm⟩
  exact ⟨rfl, hcalm⟩

variable [TimeNumber τ]

theorem pause (spacing : Spacing τ) :
    Ensures calm (spacing.pause venue.toClock) fun _ => calm := by
  unfold Spacing.pause
  split
  · refine h.now.bind fun now => ?_
    split
    · exact (h.log _).bind fun _ => h.sleep _
    · exact .pure fun _ hcalm => hcalm
  · exact .pure fun _ hcalm => hcalm

theorem wait (spacing : Spacing τ) :
    Ensures calm (spacing.wait venue.toClock) fun _ => calm := by
  unfold Spacing.wait Spacing.mark
  refine (h.pause spacing).bind fun _ => h.now.bind fun now => ?_
  exact .pure fun _ hcalm => hcalm

theorem fetchPage {chunk : Chunk} {fault : Fault}
    (hfault : job.announcement chunk 1 = .error fault) (held retries : Nat) (spacing : Spacing τ) :
    Ensures calm (FetchJob.fetchPage venue job chunk held retries 1 spacing) fun reply _ =>
      reply.1 = .error (.broke fault) := by
  have hattempt : FetchJob.attempt venue job chunk retries 1 = pure (.broke fault) := by
    unfold FetchJob.attempt FetchJob.announceAndCall
    rw [hfault]
    rfl
  have haround : Ensures calm
      (spacing.around venue.toClock (FetchJob.attempt venue job chunk retries 1)) fun reply _ =>
        reply.1 = .broke fault := by
    unfold Spacing.around
    rw [hattempt]
    exact (h.wait spacing).bind fun _ _ _ => rfl
  have hfirst : FetchJob.cancelledBefore venue 1 = pure false := if_neg (Nat.lt_irrefl 1)
  unfold FetchJob.fetchPage
  rw [hfirst, pure_bind, if_neg Bool.false_ne_true]
  refine haround.bind fun reply => ?_
  obtain ⟨answer, spacing⟩ := reply
  rintro state rfl
  rfl

variable {start : Int} {fault : Fault} {series : Series Candle}

theorem fetchFrom (hfault : job.announcement (job.plan.chunkAt start) 1 = .error fault)
    (hroom : series.isFull = false) (fuel : Nat) (spacing : Spacing τ) :
    Ensures calm (FetchJob.fetchFrom venue job (fuel + 1) (some start) series spacing)
      fun reply _ => reply.1 = .error (.broke fault) := by
  have hchunk : Ensures calm (FetchJob.fetchChunk venue job (job.plan.chunkAt start) series.size
      spacing) fun reply _ => reply.1 = .error (.broke fault) := by
    unfold FetchJob.fetchChunk
    refine (h.fetchPage hfault series.size job.maxRetries.toNat spacing).bind fun reply => ?_
    obtain ⟨page, spacing⟩ := reply
    rintro state rfl
    rfl
  unfold FetchJob.fetchFrom
  rw [hroom, if_neg Bool.false_ne_true]
  refine h.cancelled.bind fun stopped => ?_
  cases stopped with
  | true => exact fun _ hstopped => absurd hstopped.1.symm Bool.false_ne_true
  | false =>
      rw [if_neg Bool.false_ne_true]
      refine .weaken (hchunk.bind fun reply => ?_) fun _ hgoing => hgoing.2
      obtain ⟨answer, spacing⟩ := reply
      rintro state rfl
      rfl

theorem run (hfault : job.announcement (job.plan.chunkAt job.plan.range.start) 1 = .error fault)
    (hopens : job.plan.Announceable) (hnonempty : job.plan.range.isEmpty = false)
    (hroom : series.isFull = false) (spacing : Spacing τ) :
    Ensures calm (FetchJob.run venue job series spacing) fun reply _ =>
      reply.1 = .error (.broke fault) := by
  obtain ⟨fuel, hlength⟩ := Plan.exists_length_eq hnonempty
  obtain ⟨headline, opening, hrun⟩ := FetchJob.run_of_announceable hopens venue series spacing
  rw [hrun, Plan.first?_of_nonempty hnonempty, hlength]
  refine (h.log _).bind fun _ => (h.log _).bind fun _ => ?_
  refine (h.fetchFrom hfault hroom fuel spacing).bind fun reply => ?_
  obtain ⟨answer, spacing⟩ := reply
  rintro state rfl
  rfl

/-- A fetch of a range with an instant fails if the number of its attempts has too many digits. -/
theorem fetch {request : Request} {range : DateRange} {maxRetries maxRecords : Int}
    (hrecords : 1 ≤ maxRecords) (hnonempty : range.isEmpty = false) (hrange : range.InCalendar)
    (hlarge : ¬ (maxRetries + 1).natAbs < Number.integerBound) (spacing : Spacing τ) :
    Ensures calm (CandleHistory.fetch venue maxRetries request range maxRecords spacing)
      fun reply _ => reply.1 = .error (.broke .tooManyDigits) := by
  obtain ⟨plan, hplan, rfl, -, -⟩ := Plan.make_isOk range request.interval request.one_le_limit
  obtain ⟨series, hseries, hempty, -⟩ := Series.make_isOk Candle hrecords
  have hwithin := plan.within_first
  rw [Plan.first?_of_nonempty hnonempty] at hwithin
  obtain ⟨span, hspan⟩ := hwithin.spanText_isOk hrange
  let job : FetchJob := ⟨request, plan, maxRetries⟩
  have hjob : ¬ job.Announceable := hlarge
  have hfault := FetchJob.announcement_of_not_announceable hspan hjob 1
  unfold CandleHistory.fetch
  rw [hplan, hseries]
  exact h.run hfault (Plan.announceable_of_make hplan hrange) hnonempty
    (Series.isFull_of_nil hempty) spacing

end Venue.Undisturbed

end CandleHistory
