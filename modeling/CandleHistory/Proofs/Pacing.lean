import CandleHistory.Number.Rounding
import CandleHistory.Proofs.Invariance
import CandleHistory.Proofs.Recording
import Mathlib.Data.List.Chain
import Mathlib.Tactic.Linarith
import Mathlib.Tactic.NormNum

/-!
The spacing of calls over time, with exact times. The invariant is carried through a spaced attempt
in three stages: between attempts, when the wait is over, and when the call has returned. It holds
however attempts and fetches end, so it holds over any sequence of fetches that share the spacing.
-/

namespace CandleHistory

/-- Exact times in seconds. Only times longer than none are told in milliseconds. -/
instance : TimeNumber ℚ where
  isPositive t := decide (0 < t)
  millisText t := toString (Number.roundHalfEven (t * 1000).num.natAbs (t * 1000).den)

/-- What a clock shows in a state of the world. -/
def Clock.time {σ τ : Type} (clock : Clock τ (StateM σ)) (world : σ) : τ := (clock.now world).1

/-- A call in time: what the clock shows when it is made, and when it has returned or failed. -/
structure TimedCall where
  start : ℚ
  stop : ℚ

/-- A reading of the clock, a pause of the length that was asked for, or a call. -/
inductive Moment where
  | read (now : ℚ)
  | slept (asked : ℚ)
  | called (call : TimedCall)

/-- What happened in time so far, the earliest moment first. -/
abbrev Timeline := List Moment

def Moment.call? : Moment → Option TimedCall
  | read _ => none
  | slept _ => none
  | called call => some call

namespace Timeline

def calls (timeline : Timeline) : List TimedCall := timeline.filterMap Moment.call?

@[simp] theorem calls_append (first second : Timeline) :
    calls (first ++ second) = calls first ++ calls second := List.filterMap_append

@[simp] theorem calls_read (now : ℚ) : calls [.read now] = [] := rfl

@[simp] theorem calls_slept (asked : ℚ) : calls [.slept asked] = [] := rfl

@[simp] theorem calls_called (call : TimedCall) : calls [.called call] = [call] := rfl

/-- Every call but the first starts at least the gap after the one before it has ended. -/
def Spaced (gap : ℚ) (timeline : Timeline) : Prop :=
  timeline.calls.IsChain fun earlier later => earlier.stop + gap ≤ later.start

/-- After such a past a pause is due, of the length that is asked for: the clock was read when the
last call was over, has just been read again, and the gap has not elapsed between the two readings.
The first reading is not before the call has ended, and shows just that time if the log is kept
promptly. -/
def Due (gap : ℚ) (promptly : Prop) (past : Timeline) (asked : ℚ) : Prop :=
  ∃ earlier call done now, past = earlier ++ [.called call, .read done, .read now] ∧
    call.stop ≤ done ∧ (promptly → done = call.stop) ∧
    now < done + gap ∧ asked = done + gap - now

/-- Every pause is due. -/
def PausesDue (gap : ℚ) (promptly : Prop) (timeline : Timeline) : Prop :=
  ∀ past asked future, timeline = past ++ .slept asked :: future → Due gap promptly past asked

variable {gap : ℚ} {promptly : Prop} {timeline : Timeline}

theorem Spaced.append_called {call : TimedCall} (h : timeline.Spaced gap)
    (hlast : ∀ last ∈ timeline.calls.getLast?, last.stop + gap ≤ call.start) :
    Spaced gap (timeline ++ [.called call]) := by
  unfold Spaced
  rw [calls_append, calls_called]
  apply List.isChain_append.mpr
  refine ⟨h, List.isChain_singleton _, ?_⟩
  intro last hmem next hnext
  cases hnext
  exact hlast last hmem

theorem PausesDue.append {moment : Moment} (h : timeline.PausesDue gap promptly)
    (hmoment : ∀ asked, moment = .slept asked → Due gap promptly timeline asked) :
    PausesDue gap promptly (timeline ++ [moment]) := by
  intro past asked future hsplit
  rcases List.eq_nil_or_concat future with rfl | ⟨rest, final, rfl⟩
  · obtain ⟨rfl, hslept⟩ := List.append_singleton_inj.mp hsplit
    exact hmoment asked hslept
  · have hlonger : timeline ++ [moment] = (past ++ .slept asked :: rest) ++ [final] := by
      simpa using hsplit
    obtain ⟨hbefore, -⟩ := List.append_singleton_inj.mp hlonger
    exact h past asked rest hbefore

end Timeline

variable {σ : Type}

theorem bind_state {ρ α β : Type} (act : StateM ρ α) (next : α → StateM ρ β) (state : ρ) :
    (act >>= next) state = next (act state).1 (act state).2 := rfl

namespace Timeline

/-- Does something, and notes it as a moment that may depend on the world before, on what was handed
on, and on the world after. -/
def noting {α : Type} (moment : σ → α → σ → Moment) (act : StateM σ α) : StateM (σ × Timeline) α :=
  fun state => ((act state.1).1, (act state.1).2,
    state.2 ++ [moment state.1 (act state.1).1 (act state.1).2])

/-- Does something of which nothing is noted. -/
def unnoted {α : Type} (act : StateM σ α) : StateM (σ × Timeline) α :=
  fun state => ((act state.1).1, (act state.1).2, state.2)

end Timeline

namespace Venue

/-- The venue with a timeline. -/
def timed (venue : Venue ℚ (StateM σ)) : Venue ℚ (StateM (σ × Timeline)) where
  now := Timeline.noting (fun _ now _ => .read now) venue.now
  sleep delay := Timeline.noting (fun _ _ _ => .slept delay) (venue.sleep delay)
  log record := Timeline.unnoted (venue.log record)
  call call := Timeline.noting
    (fun before _ after => .called ⟨venue.time before, venue.time after⟩) (venue.call call)
  cancelRequested := Timeline.unnoted venue.cancelRequested
  report held := Timeline.unnoted (venue.report held)

theorem timed_coupled (venue : Venue ℚ (StateM σ)) :
    venue.Coupled (recording σ Timeline) venue.timed where
  now _ := ⟨rfl, rfl⟩
  sleep _ _ := ⟨rfl, rfl⟩
  log _ _ := ⟨rfl, rfl⟩
  call _ _ := ⟨rfl, rfl⟩
  cancelRequested _ := ⟨rfl, rfl⟩
  report _ _ := ⟨rfl, rfl⟩

/-- A venue whose clock never goes backwards, and that sleeps as long as it is asked to or longer.
-/
structure Steady (venue : Venue ℚ (StateM σ)) : Prop where
  now : ∀ world, venue.time world ≤ venue.time (venue.now world).2
  sleep : ∀ delay world, 0 < delay →
    venue.time world + delay ≤ venue.time (venue.sleep delay world).2
  log : ∀ record world, venue.time world ≤ venue.time (venue.log record world).2
  call : ∀ call world, venue.time world ≤ venue.time (venue.call call world).2
  cancelRequested : ∀ world, venue.time world ≤ venue.time (venue.cancelRequested world).2
  report : ∀ held world, venue.time world ≤ venue.time (venue.report held world).2

/-- Keeping the log takes no time. -/
def LogsPromptly (venue : Venue ℚ (StateM σ)) : Prop :=
  ∀ record world, venue.time (venue.log record world).2 = venue.time world

end Venue

section Stages

variable (venue : Venue ℚ (StateM σ)) (gap : ℚ)

/-- Whatever happened so far was paced. -/
structure PacedSoFar (timeline : Timeline) : Prop where
  spaced : timeline.Spaced gap
  pausesDue : timeline.PausesDue gap venue.LogsPromptly

/-- Between attempts: the last thing noted is the end of the last call, if there was one. -/
structure Resting (spacing : Spacing ℚ) (state : σ × Timeline) : Prop extends
    PacedSoFar venue gap state.2 where
  gap_eq : spacing.gap = gap
  last : (spacing.last = none ∧ state.2 = []) ∨
    ∃ earlier call done, spacing.last = some done ∧
      state.2 = earlier ++ [.called call, .read done] ∧ call.stop ≤ done ∧
      (venue.LogsPromptly → done = call.stop) ∧ done ≤ venue.time state.1

/-- A call may be made: the gap after the last call has elapsed. -/
structure Released (state : σ × Timeline) : Prop extends PacedSoFar venue gap state.2 where
  elapsed : ∀ last ∈ state.2.calls.getLast?, last.stop + gap ≤ venue.time state.1

/-- A call has returned, and nothing was noted since. -/
structure Returned (state : σ × Timeline) : Prop extends PacedSoFar venue gap state.2 where
  last : ∃ earlier call, state.2 = earlier ++ [.called call] ∧
    call.stop ≤ venue.time state.1 ∧ (venue.LogsPromptly → venue.time state.1 = call.stop)

end Stages

section Attempts

variable {venue : Venue ℚ (StateM σ)} (hsteady : venue.Steady) {gap : ℚ}

theorem PacedSoFar.append_read {timeline : Timeline} (h : PacedSoFar venue gap timeline) (now : ℚ) :
    PacedSoFar venue gap (timeline ++ [.read now]) where
  spaced := by simpa [Timeline.Spaced] using h.spaced
  pausesDue := h.pausesDue.append nofun

theorem Resting.later {spacing : Spacing ℚ} {world world' : σ} {timeline : Timeline}
    (h : Resting venue gap spacing (world, timeline))
    (htime : venue.time world ≤ venue.time world') :
    Resting venue gap spacing (world', timeline) := by
  refine ⟨h.toPacedSoFar, h.gap_eq, h.last.imp_right ?_⟩
  rintro ⟨earlier, call, done, hlast, htimeline, hstop, hprompt, hdone⟩
  exact ⟨earlier, call, done, hlast, htimeline, hstop, hprompt, hdone.trans htime⟩

include hsteady

/-- After a pause that is due, a call may be made. -/
theorem sleep_released {world : σ} {timeline : Timeline} {delay : ℚ} (record : LogRecord)
    (hpaced : PacedSoFar venue gap timeline) (hpositive : 0 < delay)
    (hdue : timeline.Due gap venue.LogsPromptly delay)
    (helapsed : ∀ last ∈ timeline.calls.getLast?, last.stop + gap ≤ venue.time world + delay) :
    Released venue gap
      ((venue.timed.log record >>= fun _ => venue.timed.sleep delay) (world, timeline)).2 := by
  have hlog := hsteady.log record world
  have hsleep := hsteady.sleep delay (venue.log record world).2 hpositive
  change Released venue gap
    ((venue.sleep delay (venue.log record world).2).2, timeline ++ [.slept delay])
  refine ⟨⟨?_, ?_⟩, ?_⟩
  · simpa [Timeline.Spaced] using hpaced.spaced
  · apply hpaced.pausesDue.append
    rintro asked ⟨⟩
    exact hdue
  · intro last hmem
    have hlast := helapsed last (by simpa using hmem)
    dsimp only
    linarith

/-- Whether it takes a pause or not, the gap after the last call has elapsed afterwards. -/
theorem pause_released (spacing : Spacing ℚ) :
    Ensures (Resting venue gap spacing) (spacing.pause venue.timed.toClock)
      fun _ state => Released venue gap state := by
  rintro ⟨world, timeline⟩ hresting
  rcases hresting.last with ⟨hlast, rfl⟩ | ⟨earlier, call, done, hlast, rfl, hstop, hprompt, hdone⟩
  · have hnothing : spacing.pause venue.timed.toClock (world, []) = ((), world, []) := by
      simp [Spacing.pause, hlast]
      rfl
    rw [hnothing]
    exact ⟨hresting.toPacedSoFar, nofun⟩
  · have hread := hresting.toPacedSoFar.append_read (venue.time world)
    have hnow := hsteady.now world
    have hreading (past : Timeline) : (venue.timed.now (world, past)).1 = venue.time world := rfl
    have hcalls : Timeline.calls (earlier ++ [.called call, .read done] ++
        [.read (venue.time world)]) = Timeline.calls earlier ++ [call] := by
      simp [Timeline.calls, Moment.call?]
    have hcall (last : TimedCall) (hmem : last ∈ (Timeline.calls (earlier ++
        [.called call, .read done] ++ [.read (venue.time world)])).getLast?) : last = call := by
      rw [hcalls, List.getLast?_concat] at hmem
      exact (Option.some.inj hmem).symm
    unfold Spacing.pause
    rw [hlast, Option.isSome_some, if_pos rfl, bind_state, hreading]
    by_cases hdue : 0 < done + gap - venue.time world
    · have hdelay : spacing.delay? (venue.time world) = some (done + gap - venue.time world) := by
        simp [Spacing.delay?, hlast, hresting.gap_eq, TimeNumber.isPositive, hdue]
      simp only [hdelay]
      apply sleep_released hsteady _ hread hdue
      · refine ⟨earlier, call, done, venue.time world, ?_, hstop, hprompt, by linarith, rfl⟩
        simp
      · intro last hmem
        rw [hcall last hmem]
        linarith
    · have hdelay : spacing.delay? (venue.time world) = none := by
        simp [Spacing.delay?, hlast, hresting.gap_eq, TimeNumber.isPositive, hdue]
      simp only [hdelay]
      refine ⟨hread, fun last hmem => ?_⟩
      rw [hcall last hmem]
      change call.stop + gap ≤ venue.time (venue.now world).2
      linarith

theorem wait_released (spacing : Spacing ℚ) :
    Ensures (Resting venue gap spacing) (spacing.wait venue.timed.toClock)
      fun waited state => waited.gap = gap ∧ Released venue gap state := by
  rintro ⟨world, timeline⟩ hresting
  have hreleased := pause_released hsteady spacing (world, timeline) hresting
  unfold Spacing.wait
  rw [bind_state]
  generalize (spacing.pause venue.timed.toClock (world, timeline)).2 = paused at hreleased
  obtain ⟨world, timeline⟩ := paused
  have hnow := hsteady.now world
  refine ⟨hresting.gap_eq, hreleased.toPacedSoFar.append_read (venue.time world), ?_⟩
  change ∀ last ∈ (Timeline.calls (timeline ++ [.read (venue.time world)])).getLast?,
    last.stop + gap ≤ venue.time (venue.now world).2
  rw [Timeline.calls_append, Timeline.calls_read, List.append_nil]
  intro last hmem
  exact (hreleased.elapsed last hmem).trans hnow

theorem announceAndCall_returned {job : FetchJob} {chunk : Chunk} {number : Nat} {message : String}
    (hannounced : job.announcement chunk number = .ok message) :
    Ensures (Released venue gap) (FetchJob.announceAndCall venue.timed job chunk number)
      fun _ state => Returned venue gap state := by
  rintro ⟨world, timeline⟩ hreleased
  let record : LogRecord := ⟨.debug, .fetch, message⟩
  let announced := (venue.log record world).2
  let answered := (venue.call (job.pageCall chunk) announced).2
  have hlog : venue.time world ≤ venue.time announced := hsteady.log record world
  unfold FetchJob.announceAndCall
  rw [hannounced]
  change Returned venue gap
    (answered, timeline ++ [.called ⟨venue.time announced, venue.time answered⟩])
  refine ⟨⟨?_, hreleased.pausesDue.append nofun⟩, ?_⟩
  · apply hreleased.spaced.append_called
    intro last hmem
    exact (hreleased.elapsed last hmem).trans hlog
  · exact ⟨timeline, _, rfl, le_refl _, fun _ => rfl⟩

theorem logFailure_returned (record? : Option LogRecord) :
    Ensures (Returned venue gap) (FetchJob.logFailure venue.timed record?)
      fun _ state => Returned venue gap state := by
  rintro ⟨world, timeline⟩ hreturned
  cases record? with
  | none => exact hreturned
  | some record =>
      obtain ⟨earlier, call, htimeline, hstop, hprompt⟩ := hreturned.last
      have hlog := hsteady.log record world
      refine ⟨hreturned.toPacedSoFar, earlier, call, htimeline, hstop.trans hlog, ?_⟩
      intro hpromptly
      exact (hpromptly record world).trans (hprompt hpromptly)

theorem mark_resting (spacing : Spacing ℚ) :
    Ensures (fun state => spacing.gap = gap ∧ Returned venue gap state)
      (spacing.mark venue.timed.toClock) fun marked state => Resting venue gap marked state := by
  rintro ⟨world, timeline⟩ ⟨hgap, hreturned⟩
  obtain ⟨earlier, call, rfl, hstop, hprompt⟩ := hreturned.last
  have hnow := hsteady.now world
  refine ⟨hreturned.toPacedSoFar.append_read (venue.time world), hgap, Or.inr ?_⟩
  refine ⟨earlier, call, venue.time world, rfl, ?_, hstop, hprompt, hnow⟩
  exact List.append_assoc _ _ _

theorem attempt_returned {job : FetchJob} {chunk : Chunk} {number : Nat} {message : String}
    (hannounced : job.announcement chunk number = .ok message) (left : Nat) :
    Ensures (Released venue gap) (job.attempt venue.timed chunk left number)
      fun _ state => Returned venue gap state := by
  unfold FetchJob.attempt
  refine (announceAndCall_returned hsteady hannounced).bind fun answer => ?_
  exact (logFailure_returned hsteady _).bind fun _ => .pure fun _ hreturned => hreturned

/-- A spaced attempt that can be announced leads from rest to rest. -/
theorem attemptKeeps_resting {job : FetchJob} {chunk : Chunk}
    (hannounced : ∀ number, ∃ message, job.announcement chunk number = .ok message) :
    job.AttemptKeeps venue.timed (Resting venue gap) chunk := by
  intro left number spacing
  obtain ⟨message, hmessage⟩ := hannounced number
  unfold Spacing.around
  refine (wait_released hsteady spacing).bind fun waited => ?_
  have hattempt : Ensures (fun state => waited.gap = gap ∧ Released venue gap state)
      (job.attempt venue.timed chunk left number)
      fun _ state => waited.gap = gap ∧ Returned venue gap state :=
    fun state hstate => ⟨hstate.1, attempt_returned hsteady hmessage left state hstate.2⟩
  refine hattempt.bind fun answer => (mark_resting hsteady waited).bind fun marked => ?_
  exact .pure fun _ hresting => hresting

theorem timed_keeps_resting : venue.timed.Keeps (Resting venue gap) where
  log record _ state hresting := hresting.later (hsteady.log record state.1)
  cancelRequested _ state hresting := hresting.later (hsteady.cancelRequested state.1)
  report held _ state hresting := hresting.later (hsteady.report held state.1)

end Attempts

section Unannounced

variable (venue : Venue ℚ (StateM σ))

/-- Nothing was called so far. -/
def Uncalled (state : σ × Timeline) : Prop := state.2.calls = []

theorem timed_keeps_uncalled : venue.timed.Keeps fun _ : Spacing ℚ => Uncalled where
  log _ _ _ huncalled := huncalled
  cancelRequested _ _ huncalled := huncalled
  report _ _ _ huncalled := huncalled

theorem now_uncalled : Ensures Uncalled venue.timed.now fun _ => Uncalled := by
  intro state huncalled
  have hcalls : Timeline.calls (state.2 ++ [.read (venue.time state.1)]) = [] := by
    rw [Timeline.calls_append, huncalled]
    rfl
  exact hcalls

theorem sleep_uncalled (delay : ℚ) :
    Ensures Uncalled (venue.timed.sleep delay) fun _ => Uncalled := by
  intro state huncalled
  have hcalls : Timeline.calls (state.2 ++ [.slept delay]) = [] := by
    rw [Timeline.calls_append, huncalled]
    rfl
  exact hcalls

theorem mark_uncalled (spacing : Spacing ℚ) :
    Ensures Uncalled (spacing.mark venue.timed.toClock) fun _ => Uncalled :=
  (now_uncalled venue).bind fun _ => .pure fun _ huncalled => huncalled

theorem wait_uncalled (spacing : Spacing ℚ) :
    Ensures Uncalled (spacing.wait venue.timed.toClock) fun _ => Uncalled := by
  have hlog := (timed_keeps_uncalled venue).log
  unfold Spacing.wait Spacing.pause
  refine Ensures.bind ?_ fun _ => mark_uncalled venue spacing
  split
  · refine (now_uncalled venue).bind fun now => ?_
    split
    · exact (hlog _ spacing).bind fun _ => sleep_uncalled venue _
    · exact .pure fun _ huncalled => huncalled
  · exact .pure fun _ huncalled => huncalled

theorem attemptKeeps_uncalled {job : FetchJob} {chunk : Chunk}
    (hannounced : ∀ number, ∃ fault, job.announcement chunk number = .error fault) :
    job.AttemptKeeps venue.timed (fun _ : Spacing ℚ => Uncalled) chunk := by
  intro left number spacing
  obtain ⟨fault, hfault⟩ := hannounced number
  have hattempt : Ensures Uncalled (job.attempt venue.timed chunk left number)
      fun _ => Uncalled := by
    unfold FetchJob.attempt FetchJob.announceAndCall
    rw [hfault]
    exact fun _ huncalled => huncalled
  unfold Spacing.around
  refine (wait_uncalled venue spacing).bind fun waited => hattempt.bind fun answer => ?_
  exact (mark_uncalled venue waited).bind fun _ => .pure fun _ huncalled => huncalled

end Unannounced

section Fetches

variable {venue : Venue ℚ (StateM σ)} {maxRetries : Int}

/-- The errand in a world with a timeline. -/
def Errand.timed (errand : Errand (StateM σ)) : Errand (StateM (σ × Timeline)) :=
  { errand with meanwhile := Timeline.unnoted errand.meanwhile }

/-- A timeline changes neither what comes of the fetches nor the world. -/
theorem fetchAll_timed (errands : List (Errand (StateM σ))) (spacing : Spacing ℚ) :
    (Venue.recording σ Timeline).rel (fetchAll venue maxRetries errands spacing)
      (fetchAll venue.timed maxRetries (errands.map Errand.timed) spacing) := by
  induction errands generalizing spacing with
  | nil => exact (Venue.recording σ Timeline).pure _
  | cons errand errands ih =>
      refine (Venue.recording σ Timeline).bind (fun _ => ⟨rfl, rfl⟩) fun _ => ?_
      refine (Venue.recording σ Timeline).bind ?_ fun reply => ?_
      · exact (Venue.recording σ Timeline).fetch venue.timed_coupled maxRetries errand.request
          errand.range errand.maxRecords spacing
      · exact (Venue.recording σ Timeline).bind (ih reply.2)
          fun _ => (Venue.recording σ Timeline).pure _

theorem fetchAll_resting (hsteady : venue.Steady) {errands : List (Errand (StateM σ))}
    (hmeanwhile : ∀ errand ∈ errands, ∀ world,
      venue.time world ≤ venue.time (errand.meanwhile world).2)
    (hrange : ∀ errand ∈ errands, errand.range.InCalendar)
    (hsmall : (maxRetries + 1).natAbs < Number.integerBound) (gap : ℚ) (spacing : Spacing ℚ) :
    Ensures (Resting venue gap spacing)
      (fetchAll venue.timed maxRetries (errands.map Errand.timed) spacing)
      fun reply => Resting venue gap reply.2 := by
  apply (timed_keeps_resting hsteady).fetchAll
  · intro errand herrand spacing state hresting
    obtain ⟨errand, hmem, rfl⟩ := List.mem_map.mp herrand
    exact hresting.later (hmeanwhile errand hmem state.1)
  · intro errand herrand plan fuel start hplan hwithin
    obtain ⟨errand, hmem, rfl⟩ := List.mem_map.mp herrand
    have hcalendar : plan.range.InCalendar := hplan ▸ hrange errand hmem
    obtain ⟨span, hspan⟩ := hwithin.spanText_isOk hcalendar
    exact attemptKeeps_resting hsteady (FetchJob.announcement_of_announceable hspan hsmall)

theorem fetchAll_uncalled {errands : List (Errand (StateM σ))}
    (hrange : ∀ errand ∈ errands, errand.range.InCalendar)
    (hlarge : ¬ (maxRetries + 1).natAbs < Number.integerBound) (spacing : Spacing ℚ) :
    Ensures Uncalled (fetchAll venue.timed maxRetries (errands.map Errand.timed) spacing)
      fun _ => Uncalled := by
  apply (timed_keeps_uncalled venue).fetchAll
  · intro errand herrand spacing state huncalled
    obtain ⟨errand, hmem, rfl⟩ := List.mem_map.mp herrand
    exact huncalled
  · intro errand herrand plan fuel start hplan hwithin
    obtain ⟨errand, hmem, rfl⟩ := List.mem_map.mp herrand
    have hcalendar : plan.range.InCalendar := hplan ▸ hrange errand hmem
    obtain ⟨span, hspan⟩ := hwithin.spanText_isOk hcalendar
    have hjob : ¬ FetchJob.Announceable ⟨errand.request, plan, maxRetries⟩ := hlarge
    exact attemptKeeps_uncalled venue fun number =>
      ⟨_, FetchJob.announcement_of_not_announceable hspan hjob number⟩

/-- Over any sequence of fetches that share a venue and a spacing, whatever comes of them, each call
but the first starts at least the gap after the one before it has ended, and if anything is called
at all, every pause is due. The timeline is that of the fetches as they are: it changes nothing. -/
theorem fetchAll_paced (hsteady : venue.Steady) (errands : List (Errand (StateM σ)))
    (hmeanwhile : ∀ errand ∈ errands, ∀ world,
      venue.time world ≤ venue.time (errand.meanwhile world).2)
    (hrange : ∀ errand ∈ errands, errand.range.InCalendar) (maxRetries : Int) (gap : ℚ)
    (world : σ) :
    let plain := fetchAll venue maxRetries errands ⟨gap, none⟩ world
    let timed := fetchAll venue.timed maxRetries (errands.map Errand.timed) ⟨gap, none⟩ (world, [])
    let timeline := timed.2.2
    timed.1 = plain.1 ∧ timed.2.1 = plain.2 ∧ timeline.Spaced gap ∧
      (timeline.calls ≠ [] → timeline.PausesDue gap venue.LogsPromptly) := by
  intro plain timed timeline
  obtain ⟨hsame, hworld⟩ := fetchAll_timed errands ⟨gap, none⟩ (world, [])
  refine ⟨hsame, hworld, ?_⟩
  by_cases hsmall : (maxRetries + 1).natAbs < Number.integerBound
  · have hstart : Resting venue gap ⟨gap, none⟩ (world, []) :=
      ⟨⟨List.isChain_nil, fun past asked future hsplit => by simp at hsplit⟩, rfl,
        Or.inl ⟨rfl, rfl⟩⟩
    have hresting := fetchAll_resting hsteady hmeanwhile hrange hsmall gap _ _ hstart
    exact ⟨hresting.spaced, fun _ => hresting.pausesDue⟩
  · have huncalled : timeline.calls = [] :=
      fetchAll_uncalled hrange hsmall ⟨gap, none⟩ (world, []) rfl
    refine ⟨?_, fun hcalled => absurd huncalled hcalled⟩
    unfold Timeline.Spaced
    rw [huncalled]
    exact List.isChain_nil

/-- A venue at which calls take a fixed time and nothing else takes any. It answers its calls one
after another, whatever they are; the state holds the time and counts them. -/
def Venue.ticking (latency : ℚ) (answer : Nat → PageAnswer) : Venue ℚ (StateM (ℚ × Nat)) where
  now state := (state.1, state)
  sleep delay state := ((), state.1 + delay, state.2)
  log _ := pure ()
  call _ state := (answer state.2, state.1 + latency, state.2 + 1)
  cancelRequested := pure false
  report _ := pure none

theorem Venue.ticking_steady {latency : ℚ} (h : 0 ≤ latency) (answer : Nat → PageAnswer) :
    (Venue.ticking latency answer).Steady where
  now _ := le_refl _
  sleep _ _ _ := le_refl _
  log _ _ := le_refl _
  call _ _ := le_add_of_nonneg_right h
  cancelRequested _ := le_refl _
  report _ _ := le_refl _

/-- Busy at first, then pages without rows. -/
def busyThenEmpty : Nat → PageAnswer
  | 0 => .failed (.transient "busy")
  | _ => .page (.list [])

theorem fetchAll_paced_busyThenEmpty :
    let venue := Venue.ticking (1 / 4) busyThenEmpty
    let errand (pause : ℚ) : Errand (StateM (ℚ × Nat)) :=
      ⟨fun state => ((), state.1 + pause, state.2), ⟨"BTCUSDT", .minutes1, .linear, 1, by decide⟩,
        ⟨0, 60000, by decide⟩, 5⟩
    let timeline := (fetchAll venue.timed 3 ([errand 0, errand 2].map Errand.timed) ⟨1, none⟩
      ((0, 0), [])).2.2
    timeline.Spaced 1 ∧ timeline.PausesDue 1 venue.LogsPromptly ∧
      timeline.calls.map TimedCall.start = [0, 5 / 4, 7 / 2] := by
  intro venue errand timeline
  have hstarts : timeline.calls.map TimedCall.start = [0, 5 / 4, 7 / 2] := by decide +kernel
  have hcalled : timeline.calls ≠ [] := by
    intro hnone
    rw [hnone] at hstarts
    cases hstarts
  have hsteady : venue.Steady := Venue.ticking_steady (by norm_num) busyThenEmpty
  have hmeanwhile : ∀ other ∈ [errand 0, errand 2], ∀ world,
      venue.time world ≤ venue.time (other.meanwhile world).2 := by
    intro other hother world
    have hpause (pause : ℚ) (h : 0 ≤ pause) :
        venue.time world ≤ venue.time ((errand pause).meanwhile world).2 :=
      le_add_of_nonneg_right h
    rcases List.mem_pair.mp hother with rfl | rfl
    · exact hpause 0 (le_refl _)
    · exact hpause 2 (by norm_num)
  have hrange : ∀ other ∈ [errand 0, errand 2], other.range.InCalendar := by
    intro other hother
    rcases List.mem_pair.mp hother with rfl | rfl <;> constructor <;> decide
  obtain ⟨-, -, hspaced, hdue⟩ :=
    fetchAll_paced hsteady [errand 0, errand 2] hmeanwhile hrange 3 1 (0, 0)
  exact ⟨hspaced, hdue hcalled, hstarts⟩

end Fetches

end CandleHistory
