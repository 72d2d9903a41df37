import CandleHistory.Proofs.Attempts
import CandleHistory.Proofs.Collected
import CandleHistory.Proofs.Market
import CandleHistory.Proofs.Recording

/-!
Fetches that are cancelled at some moment, compared with the same fetches left alone. Up to the
first check after that moment the two do the same. There the cancelled one ends, if there is another
check; and since a check is only made before a call, the other one goes on with a call.
-/

namespace CandleHistory

variable {σ τ α β : Type}

/-- The second of two actions does what the first one does, or it is cancelled at a moment or later,
and the first one then goes on with a call. -/
def StopsShort (moment : Nat) (free cut : StateM (σ × Transcript) (Except Stop α × Spacing τ)) :
    Prop :=
  ∀ state, cut state = free state ∨
    ∃ held call answer rest, (cut state).1.1 = .error (.cancelled held) ∧
      moment ≤ (cut state).2.2.length ∧
      (free state).2.2 = (cut state).2.2 ++ .called call answer :: rest

namespace StopsShort

variable {moment : Nat}

theorem refl (act : StateM (σ × Transcript) (Except Stop α × Spacing τ)) :
    StopsShort moment act act := fun _ => Or.inl rfl

/-- What both actions begin with makes no difference. -/
theorem before {act : StateM (σ × Transcript) β}
    {free cut : β → StateM (σ × Transcript) (Except Stop α × Spacing τ)}
    (h : ∀ b, StopsShort moment (free b) (cut b)) :
    StopsShort moment (act >>= free) (act >>= cut) :=
  fun state => h (act state).1 (act state).2

/-- Actions that stop short may be continued, if the first continuation only adds to the transcript
and the second one hands a cancel on. -/
theorem bind {free cut : StateM (σ × Transcript) (Except Stop α × Spacing τ)}
    {next next' : Except Stop α × Spacing τ →
      StateM (σ × Transcript) (Except Stop β × Spacing τ)}
    (h : StopsShort moment free cut) (hnext : ∀ reply, StopsShort moment (next reply) (next' reply))
    (hadds : ∀ reply, Leads (next reply) fun before _ after => before <+: after)
    (hpass : ∀ held spacing, next' (.error (.cancelled held), spacing) =
      pure (.error (.cancelled held), spacing)) :
    StopsShort moment (free >>= next) (cut >>= next') := by
  intro state
  rcases h state with hsame | ⟨held, call, answer, rest, hcancelled, hmoment, hcall⟩
  · have hstep : (cut >>= next') state = next' (free state).1 (free state).2 := by
      rw [← hsame]
      rfl
    rw [hstep]
    exact hnext _ _
  · have hstep : (cut >>= next') state =
        ((.error (.cancelled held), (cut state).1.2), (cut state).2) := by
      have hreply : (cut state).1 = (.error (.cancelled held), (cut state).1.2) :=
        Prod.ext hcancelled rfl
      have hstop : next' (cut state).1 (cut state).2 =
          ((.error (.cancelled held), (cut state).1.2), (cut state).2) := by
        rw [hreply, hpass]
        rfl
      exact hstop
    obtain ⟨more, hmore⟩ := hadds (free state).1 (free state).2.1 (free state).2.2
    refine Or.inr ⟨held, call, answer, rest ++ more, ?_, ?_, ?_⟩
    · rw [hstep]
    · rw [hstep]
      exact hmoment
    · rw [hstep]
      calc ((free >>= next) state).2.2 = (free state).2.2 ++ more := hmore.symm
        _ = (cut state).2.2 ++ .called call answer :: (rest ++ more) := by
          rw [hcall, List.append_assoc, List.cons_append]

end StopsShort

namespace Venue

/-- The venue with a transcript, at which nobody ever wishes to cancel. -/
def leftAlone (venue : Venue τ (StateM σ)) : Venue τ (StateM (σ × Transcript)) :=
  venue.recorded.wishing fun _ => false

/-- The venue with a transcript, at which someone wishes to cancel from the moment on when a number
of things have happened. -/
def cancelledAt (venue : Venue τ (StateM σ)) (moment : Nat) :
    Venue τ (StateM (σ × Transcript)) :=
  venue.recorded.wishing fun transcript => decide (moment ≤ transcript.length)

/-- What may come up when the venue is left alone. -/
def freeConduct (venue : Venue τ (StateM σ)) : Conduct :=
  { venue.conduct with wishes := fun _ wished => wished = false }

/-- What may come up when the venue is cancelled at a moment. -/
def cutConduct (venue : Venue τ (StateM σ)) (moment : Nat) : Conduct :=
  { venue.conduct with wishes := fun before wished => wished = decide (moment ≤ before.length) }

variable (venue : Venue τ (StateM σ)) (moment : Nat)

theorem leftAlone_records : venue.leftAlone.Records venue.freeConduct :=
  venue.recorded_records.wishing fun _ => false

theorem cancelledAt_records : (venue.cancelledAt moment).Records (venue.cutConduct moment) :=
  venue.recorded_records.wishing fun transcript => decide (moment ≤ transcript.length)

theorem not_wishes_freeConduct (before : Transcript) : ¬ venue.freeConduct.wishes before true :=
  Bool.noConfusion

end Venue

namespace FetchJob

variable (venue : Venue τ (StateM σ)) (moment : Nat)

theorem announceAndCall_wishing {venue : Venue τ (StateM (σ × Transcript))}
    (wish : Transcript → Bool) (job : FetchJob) (chunk : Chunk) (number : Nat) :
    announceAndCall (venue.wishing wish) job chunk number =
      announceAndCall venue job chunk number := by
  unfold announceAndCall
  cases job.announcement chunk number with
  | error fault => rfl
  | ok message => rfl

theorem attempt_wishing {venue : Venue τ (StateM (σ × Transcript))} (wish : Transcript → Bool)
    (job : FetchJob) (chunk : Chunk) (retries number : Nat) :
    attempt (venue.wishing wish) job chunk retries number =
      attempt venue job chunk retries number := by
  unfold attempt
  rw [announceAndCall_wishing]
  rfl

theorem absorb_wishing {venue : Venue τ (StateM (σ × Transcript))} (wish : Transcript → Bool)
    (chunk : Chunk) (candles : List Candle) (series : Series Candle) :
    absorb (venue.wishing wish) chunk candles series = absorb venue chunk candles series := by
  have hnoData : ∀ span, logNoData (venue.wishing wish) span = logNoData venue span := by
    intro span
    cases span with
    | error fault => rfl
    | ok span => rfl
  have hskipped : ∀ message?,
      logSkipped (venue.wishing wish) message? = logSkipped venue message? := by
    intro message?
    cases message? with
    | none => rfl
    | some message => rfl
  have hlog : ∀ level message, log (venue.wishing wish) level message = log venue level message :=
    fun _ _ => rfl
  have hreport : ∀ held, reportHeld (venue.wishing wish) held = reportHeld venue held :=
    fun _ => rfl
  unfold absorb
  simp only [hnoData, hskipped, hlog, hreport]

theorem cancelled_of_lt {state : σ × Transcript} (h : state.2.length < moment) :
    cancelled (venue.cancelledAt moment) state = (false, state) := by
  have hwish : decide (moment ≤ state.2.length) = false := decide_eq_false (Nat.not_le_of_lt h)
  have hstep : cancelled (venue.cancelledAt moment) state =
      (do
        if decide (moment ≤ state.2.length) then
          log (venue.cancelledAt moment) .warning
            "[FETCH] Cancellation requested, stopping before the next request"
        return decide (moment ≤ state.2.length) : StateM (σ × Transcript) Bool) state := rfl
  rw [hstep, hwish]
  rfl

theorem cancelled_of_le {state : σ × Transcript} (h : moment ≤ state.2.length) :
    ∃ world, cancelled (venue.cancelledAt moment) state = (true, (world, state.2)) := by
  have hwish : decide (moment ≤ state.2.length) = true := decide_eq_true h
  have hstep : cancelled (venue.cancelledAt moment) state =
      (do
        if decide (moment ≤ state.2.length) then
          log (venue.cancelledAt moment) .warning
            "[FETCH] Cancellation requested, stopping before the next request"
        return decide (moment ≤ state.2.length) : StateM (σ × Transcript) Bool) state := rfl
  have hquiet := (venue.cancelledAt_records moment).log ⟨.warning, .fetch,
    "[FETCH] Cancellation requested, stopping before the next request"⟩ state.1 state.2
  refine ⟨(log (venue.cancelledAt moment) .warning
    "[FETCH] Cancellation requested, stopping before the next request" state).2.1, ?_⟩
  rw [hstep, hwish]
  exact Prod.ext rfl (Prod.ext rfl hquiet)

/-- An action behind a check for a wish to cancel. -/
def checked (venue : Venue τ (StateM (σ × Transcript))) (stop act : StateM (σ × Transcript) β) :
    StateM (σ × Transcript) β := do
  let stopped ← cancelled venue
  if stopped then stop else act

theorem checked_eq {venue : Venue τ (StateM (σ × Transcript))}
    {stop act : StateM (σ × Transcript) β} {state state' : σ × Transcript} {stopped : Bool}
    (h : cancelled venue state = (stopped, state')) :
    checked venue stop act state = (if stopped then stop else act) state' := by
  have hstep : checked venue stop act state =
      (if (cancelled venue state).1 then stop else act) (cancelled venue state).2 := rfl
  rw [hstep, h]

/-- A check stops an action short that begins with a call. Left alone, it finds nothing. -/
theorem stopsShort_checked {free cut stop : StateM (σ × Transcript) (Except Stop α × Spacing τ)}
    (h : StopsShort moment free cut)
    (hcall : ∀ state, ∃ call answer rest,
      (checked venue.leftAlone stop free state).2.2 = state.2 ++ .called call answer :: rest)
    (held : Nat) (spacing : Spacing τ) :
    StopsShort moment (checked venue.leftAlone stop free)
      (checked (venue.cancelledAt moment) (pure (.error (.cancelled held), spacing)) cut) := by
  intro state
  have hfree : checked venue.leftAlone stop free state = free state := rfl
  rcases Nat.lt_or_ge state.2.length moment with hlt | hle
  · rw [hfree, checked_eq (cancelled_of_lt venue moment hlt)]
    exact h state
  · obtain ⟨world, hstopped⟩ := cancelled_of_le venue moment hle
    obtain ⟨call, answer, rest, hfirst⟩ := hcall state
    rw [checked_eq hstopped]
    exact Or.inr ⟨held, call, answer, rest, rfl, hle, hfirst⟩

/-- The same for the check before an attempt, which the first attempt goes without. -/
theorem stopsShort_cancelledBefore {number : Nat}
    {free cut stop : StateM (σ × Transcript) (Except Stop α × Spacing τ)}
    (h : StopsShort moment free cut)
    (hcall : ∀ state, ∃ call answer rest,
      ((do
        let stopped ← cancelledBefore venue.leftAlone number
        if stopped then stop else free : StateM (σ × Transcript) _) state).2.2 =
        state.2 ++ .called call answer :: rest) (held : Nat)
    (spacing : Spacing τ) :
    StopsShort moment
      (do
        let stopped ← cancelledBefore venue.leftAlone number
        if stopped then stop else free)
      (do
        let stopped ← cancelledBefore (venue.cancelledAt moment) number
        if stopped then return (.error (.cancelled held), spacing) else cut) := by
  unfold cancelledBefore at hcall ⊢
  by_cases hnumber : 1 < number
  · simp only [if_pos hnumber] at hcall ⊢
    exact stopsShort_checked venue moment h hcall held spacing
  · simp only [if_neg hnumber]
    exact h

variable [TimeNumber τ]

/-- Left alone, the fetch of a page begins with a call. -/
theorem begins_with_call_of_page (job : FetchJob) {chunk : Chunk} (held retries number : Nat)
    (spacing : Spacing τ)
    (hannounced : ∀ number, ∃ message, job.announcement chunk number = .ok message)
    (state : σ × Transcript) :
    ∃ call answer rest,
      (fetchPage venue.leftAlone job chunk held retries number spacing state).2.2 =
        state.2 ++ .called call answer :: rest := by
  have hpage :=
    venue.leftAlone_records.fetchPage job chunk held retries number spacing state.1 state.2
  obtain ⟨attempts, -, hafter⟩ := hpage.exists_attempts venue.not_wishes_freeConduct hannounced
  obtain ⟨answer, rest, hevents⟩ := attempts.exists_events_eq_cons
  rw [hevents] at hafter
  exact ⟨_, answer, rest, hafter⟩

/-- Left alone, a fetch that has a chunk to fetch begins with a call. -/
theorem begins_with_call_of_chunk (job : FetchJob) {start : Int} {series : Series Candle}
    (hroom : series.isFull = false)
    (hannounced : ∀ number, ∃ message,
      job.announcement (job.plan.chunkAt start) number = .ok message)
    (fuel : Nat) (spacing : Spacing τ) (state : σ × Transcript) :
    ∃ call answer rest,
      (fetchFrom venue.leftAlone job (fuel + 1) (some start) series spacing state).2.2 =
        state.2 ++ .called call answer :: rest := by
  have hrun := venue.leftAlone_records.fetchFrom job (fuel + 1) (some start) series spacing
    state.1 state.2
  obtain ⟨attempts, hchunk⟩ := hrun.exists_attempts hroom venue.not_wishes_freeConduct hannounced
  obtain ⟨answer, rest, hevents⟩ := attempts.exists_events_eq_cons
  obtain ⟨more, hmore⟩ := hchunk.prefix
  rw [hevents, List.append_assoc, List.cons_append] at hmore
  exact ⟨_, answer, rest ++ more, hmore.symm⟩

theorem fetchPage_stopsShort (job : FetchJob) (chunk : Chunk) (held retries number : Nat)
    (spacing : Spacing τ)
    (hannounced : ∀ number, ∃ message, job.announcement chunk number = .ok message) :
    StopsShort moment (fetchPage venue.leftAlone job chunk held retries number spacing)
      (fetchPage (venue.cancelledAt moment) job chunk held retries number spacing) := by
  induction retries using Nat.strongRecOn generalizing number spacing with
  | ind retries ih =>
      have hcall := begins_with_call_of_page venue job held retries number spacing hannounced
      unfold fetchPage at hcall ⊢
      refine stopsShort_cancelledBefore venue moment ?_ hcall held spacing
      have hattempt : attempt (venue.cancelledAt moment) job chunk retries number =
          attempt venue.leftAlone job chunk retries number :=
        (attempt_wishing _ job chunk retries number).trans
          (attempt_wishing _ job chunk retries number).symm
      rw [hattempt]
      apply StopsShort.before
      rintro ⟨answer, spacing⟩
      cases answer with
      | page rows => exact .refl _
      | broke fault => exact .refl _
      | failed reason =>
          dsimp only
          split
          · cases retries with
            | zero => exact .refl _
            | succ retries => exact ih retries (Nat.lt_succ_self _) (number + 1) spacing
          · exact .refl _

theorem fetchChunk_stopsShort (job : FetchJob) (chunk : Chunk) (held : Nat) (spacing : Spacing τ)
    (hannounced : ∀ number, ∃ message, job.announcement chunk number = .ok message) :
    StopsShort moment (fetchChunk venue.leftAlone job chunk held spacing)
      (fetchChunk (venue.cancelledAt moment) job chunk held spacing) := by
  unfold fetchChunk
  apply StopsShort.bind (fetchPage_stopsShort venue moment job chunk held _ 1 spacing hannounced)
  · exact fun _ => .refl _
  · exact fun _ _ _ => List.prefix_rfl
  · exact fun _ _ => rfl

/-- A fetch of chunk after chunk stops short, if its attempts can be announced. -/
theorem fetchFrom_stopsShort (job : FetchJob) (hrange : job.plan.range.InCalendar)
    (hjob : job.Announceable) {fuel : Nat} {next : Option Int} (hwithin : job.plan.Within fuel next)
    (series : Series Candle) (spacing : Spacing τ) :
    StopsShort moment (fetchFrom venue.leftAlone job fuel next series spacing)
      (fetchFrom (venue.cancelledAt moment) job fuel next series spacing) := by
  induction fuel generalizing next series spacing with
  | zero => cases next <;> exact .refl _
  | succ fuel ih =>
      cases next with
      | none => exact .refl _
      | some start =>
          obtain ⟨span, hspan⟩ := hwithin.spanText_isOk hrange
          have hannounced := announcement_of_announceable hspan hjob
          cases hroom : series.isFull with
          | true =>
              unfold fetchFrom
              simp only [hroom, if_true]
              exact .refl _
          | false =>
              have hcall := begins_with_call_of_chunk venue job hroom hannounced fuel spacing
              unfold fetchFrom at hcall ⊢
              simp only [hroom, Bool.false_eq_true, if_false] at hcall ⊢
              refine stopsShort_checked venue moment ?_ hcall series.size spacing
              apply StopsShort.bind
                (fetchChunk_stopsShort venue moment job _ series.size spacing hannounced)
              case hnext =>
                rintro ⟨answer, spacing⟩
                cases answer with
                | error stop => exact .refl _
                | ok candles =>
                    dsimp only
                    have habsorb : absorb (venue.cancelledAt moment) (job.plan.chunkAt start)
                        candles series =
                        absorb venue.leftAlone (job.plan.chunkAt start) candles series :=
                      (absorb_wishing _ _ candles series).trans
                        (absorb_wishing _ _ candles series).symm
                    rw [habsorb]
                    apply StopsShort.before
                    intro series
                    exact ih hwithin.after series spacing
              case hadds =>
                rintro ⟨answer, spacing⟩
                cases answer with
                | error stop => exact fun _ _ => List.prefix_rfl
                | ok candles =>
                    dsimp only
                    refine Leads.bind (venue.leftAlone_records.absorb _ candles series)
                      fun grown => ?_
                    refine (venue.leftAlone_records.fetchFrom job fuel _ grown spacing).mono ?_
                    rintro between _ after hrun before ⟨-, rfl⟩
                    exact (List.prefix_append _ _).trans hrun.prefix
              case hpass => exact fun _ _ => rfl

theorem run_stopsShort (job : FetchJob) (hrange : job.plan.range.InCalendar)
    (hjob : job.Announceable) (series : Series Candle) (spacing : Spacing τ) :
    StopsShort moment (run venue.leftAlone job series spacing)
      (run (venue.cancelledAt moment) job series spacing) := by
  have hsame : announce (venue.cancelledAt moment) job = announce venue.leftAlone job := by
    have hlog : (venue.cancelledAt moment).log = venue.leftAlone.log := rfl
    unfold announce logMessage
    rw [hlog]
  unfold run
  rw [hsame]
  apply StopsShort.before
  intro fault?
  cases fault? with
  | some fault => exact .refl _
  | none =>
      apply StopsShort.bind
        (fetchFrom_stopsShort venue moment job hrange hjob job.plan.within_first series spacing)
      case hnext =>
        rintro ⟨(⟨cause, held⟩ | held | fault) | series, spacing⟩ <;> exact .refl _
      case hadds =>
        rintro ⟨answer, spacing⟩
        refine Leads.bind (venue.leftAlone_records.conclude job answer) fun result => ?_
        rintro world between before ⟨rfl, -⟩
        exact List.prefix_rfl
      case hpass => exact fun _ _ => rfl

end FetchJob

section CallsAfter

variable {moment : Nat} {before after : Transcript}

theorem Transcript.calls_drop_append_event (event : Event) (h : before.length < moment) :
    Transcript.calls ((before ++ [event]).drop moment) = [] := by
  have hlength : (before ++ [event]).length ≤ moment := by
    rw [List.length_append]
    exact h
  rw [List.drop_of_length_le hlength]
  rfl

theorem Transcript.calls_drop_append_reported (held : Nat)
    (h : Transcript.calls (before.drop moment) = []) :
    Transcript.calls ((before ++ [Event.reported held]).drop moment) = [] := by
  rcases Nat.lt_or_ge before.length moment with hlt | hle
  · exact Transcript.calls_drop_append_event _ hlt
  · rw [List.drop_append_of_le_length hle, Transcript.calls_append, h]
    rfl

namespace FetchJob

variable {conduct : Conduct} {job : FetchJob}

/-- A fetch of a page makes no call after a moment from which on every check finds a wish to cancel.
The first attempt has no check of its own. -/
theorem PageRun.calls_drop {chunk : Chunk} {held retries number : Nat}
    {result : Except Stop Value}
    (h : PageRun conduct job chunk held retries number before result after)
    (hwish : ∀ transcript, conduct.wishes transcript false → transcript.length < moment)
    (hfirst : ¬ 1 < number → before.length < moment) (hnumber : 0 < number)
    (hbefore : Transcript.calls (before.drop moment) = []) :
    Transcript.calls (after.drop moment) = [] := by
  have hattempted : ∀ {number before answer}, Attempted conduct job chunk number before answer →
      (¬ 1 < number → before.length < moment) → before.length < moment := by
    intro number before answer hattempt hfirst
    by_cases hlater : 1 < number
    · exact hwish before (hattempt.unstopped hlater)
    · exact hfirst hlater
  induction h with
  | cancelled => exact hbefore
  | unannounced => exact hbefore
  | answered hattempt =>
      exact Transcript.calls_drop_append_event _ (hattempted hattempt hfirst)
  | broke hattempt =>
      exact Transcript.calls_drop_append_event _ (hattempted hattempt hfirst)
  | refused hattempt htransient =>
      exact Transcript.calls_drop_append_event _ (hattempted hattempt hfirst)
  | exhausted hattempt htransient =>
      exact Transcript.calls_drop_append_event _ (hattempted hattempt hfirst)
  | retried hattempt htransient hrun ih =>
      apply ih
      · intro hfirst
        omega
      · omega
      · exact Transcript.calls_drop_append_event _ (hattempted hattempt hfirst)

/-- A run makes no call after a moment from which on every check finds a wish to cancel. -/
theorem Run.calls_drop {fuel : Nat} {next : Option Int} {series : Series Candle}
    {outcome : Except Stop (Series Candle)}
    (h : Run conduct job fuel next series before outcome after)
    (hwish : ∀ transcript, conduct.wishes transcript false → transcript.length < moment)
    (hbefore : Transcript.calls (before.drop moment) = []) :
    Transcript.calls (after.drop moment) = [] := by
  induction h with
  | finished => exact hbefore
  | spent => exact hbefore
  | full hfull => exact hbefore
  | cancelled hfull hcancelled => exact hbefore
  | failed hfull hcalm hpage =>
      exact hpage.calls_drop hwish (fun _ => hwish _ hcalm) Nat.one_pos hbefore
  | unreadable hfull hcalm hpage hread =>
      exact hpage.calls_drop hwish (fun _ => hwish _ hcalm) Nat.one_pos hbefore
  | absorbed hfull hcalm hpage hread hrun ih =>
      apply ih
      apply Transcript.calls_drop_append_reported
      exact hpage.calls_drop hwish (fun _ => hwish _ hcalm) Nat.one_pos hbefore

end FetchJob

end CallsAfter

/-- A fetch that is cancelled at a moment, compared with the same fetch left alone. If the latter
makes no call after that moment, both come to the same. Otherwise the former is cancelled, its calls
are those that the latter makes up to that moment, and it gives the number of records merged so far.
-/
structure CancelledCleanly (interval : Interval) (cap moment : Nat)
    (free cut : Except Stop (List Candle) × Transcript) : Prop where
  unaffected : Transcript.calls (free.2.drop moment) = [] → cut.1 = free.1
  stopped : Transcript.calls (free.2.drop moment) ≠ [] →
    cut.1 = .error (.cancelled
        (min (Transcript.collected interval (free.2.take moment)).length cap)) ∧
      cut.2.calls = Transcript.calls (free.2.take moment)

namespace CancelledCleanly

variable {interval : Interval} {cap moment : Nat}
  {free cut : Except Stop (List Candle) × Transcript}

theorem of_eq (h : cut = free) (hcalls : Transcript.calls (cut.2.drop moment) = []) :
    CancelledCleanly interval cap moment free cut where
  unaffected _ := congrArg Prod.fst h
  stopped hmore := by
    rw [h] at hcalls
    exact absurd hcalls hmore

theorem of_stopped {held : Nat} {call : PageCall} {answer : PageAnswer} {rest : Transcript}
    (hcancelled : cut.1 = .error (.cancelled held)) (hmoment : moment ≤ cut.2.length)
    (hcall : free.2 = cut.2 ++ .called call answer :: rest)
    (hcalls : Transcript.calls (cut.2.drop moment) = [])
    (hheld : held = min (cut.2.collected interval).length cap) :
    CancelledCleanly interval cap moment free cut := by
  have htake : free.2.take moment = cut.2.take moment := by
    rw [hcall, List.take_append_of_le_length hmoment]
  have hsplit : cut.2.take moment ++ cut.2.drop moment = cut.2 := List.take_append_drop _ _
  constructor
  · intro hnone
    rw [hcall, List.drop_append_of_le_length hmoment, Transcript.calls_append] at hnone
    cases (List.append_eq_nil_iff.mp hnone).2
  · intro hmore
    have hcollected : Transcript.collected interval (cut.2.take moment ++ cut.2.drop moment) =
        Transcript.collected interval (cut.2.take moment) :=
      Transcript.collected_append_of_calls_eq_nil hcalls
    have hmade : Transcript.calls (cut.2.take moment ++ cut.2.drop moment) =
        Transcript.calls (cut.2.take moment) := by
      rw [Transcript.calls_append, hcalls, List.append_nil]
    rw [hsplit] at hcollected hmade
    refine ⟨?_, ?_⟩
    · rw [hcancelled, hheld, htake, hcollected]
    · rw [htake, hmade]

end CancelledCleanly

variable [TimeNumber τ]

/-- Where every attempt can be announced, a fetch is cancelled cleanly at whatever moment. -/
theorem cancelledCleanly_of_announceable (venue : Venue τ (StateM σ)) {request : Request}
    {plan : Plan} {series : Series Candle} {maxRecords maxRetries : Int}
    (hplan : Plan.make plan.range request.interval request.limit = .ok plan)
    (hseries : Series.make Candle maxRecords = .ok series) (hempty : series.kept = [])
    (hrange : plan.range.InCalendar)
    (hjob : FetchJob.Announceable ⟨request, plan, maxRetries⟩) (spacing : Spacing τ) (world : σ)
    {moment : Nat}
    (hcalls : Transcript.calls ((tracedFetch (venue.cancelledAt moment) maxRetries request
      plan.range maxRecords spacing world).2.drop moment) = []) :
    CancelledCleanly request.interval series.cap moment
      (tracedFetch venue.leftAlone maxRetries request plan.range maxRecords spacing world)
      (tracedFetch (venue.cancelledAt moment) maxRetries request plan.range maxRecords spacing
        world) := by
  obtain ⟨cut, hcut, hcutResult⟩ := (venue.cancelledAt_records moment).tracedFetch hplan hseries
    (Plan.announceable_of_make hplan hrange) maxRetries spacing world
  have hshort : StopsShort moment
      (fetch venue.leftAlone maxRetries request plan.range maxRecords spacing)
      (fetch (venue.cancelledAt moment) maxRetries request plan.range maxRecords spacing) := by
    unfold fetch
    rw [hplan, hseries]
    exact FetchJob.run_stopsShort venue moment _ hrange hjob series spacing
  rcases hshort (world, []) with hsame | ⟨held, call, answer, rest, hcancelled, hmoment, hcall⟩
  · apply CancelledCleanly.of_eq _ hcalls
    unfold tracedFetch
    rw [hsame]
  · apply CancelledCleanly.of_stopped hcancelled hmoment hcall hcalls
    have hmap : cut.map Series.result = .error (.cancelled held) :=
      hcutResult.symm.trans hcancelled
    have houtcome : cut = .error (.cancelled held) := by
      cases cut with
      | ok final => cases hmap
      | error stop =>
          cases hmap
          rfl
    exact hcut.of_cancelled hempty houtcome

/-- A fetch is cancelled cleanly at whatever moment, with one exception: if the number of attempts
has too many digits to be announced, a fetch that is left alone fails before its first call, and one
that is cancelled from the beginning is cancelled instead. -/
theorem cancelledCleanly_iff (venue : Venue τ (StateM σ)) (request : Request)
    (range : DateRange) (hrange : range.InCalendar)
    (maxRecords : Int) (hrecords : 1 ≤ maxRecords) (maxRetries : Int) (spacing : Spacing τ)
    (world : σ) (moment : Nat) :
    CancelledCleanly request.interval maxRecords.toNat moment
        (tracedFetch venue.leftAlone maxRetries request range maxRecords spacing world)
        (tracedFetch (venue.cancelledAt moment) maxRetries request range maxRecords spacing world) ↔
      (moment = 0 → range.isEmpty = false → (maxRetries + 1).natAbs < Number.integerBound) := by
  obtain ⟨plan, hplan, rfl, hinterval, -⟩ :=
    Plan.make_isOk range request.interval request.one_le_limit
  obtain ⟨series, hseries, hempty, hcap⟩ := Series.make_isOk Candle hrecords
  have hopens := Plan.announceable_of_make hplan hrange
  obtain ⟨free, hfree, hfreeResult⟩ :=
    venue.leftAlone_records.tracedFetch hplan hseries hopens maxRetries spacing world
  obtain ⟨cut, hcut, hcutResult⟩ :=
    (venue.cancelledAt_records moment).tracedFetch hplan hseries hopens maxRetries spacing world
  have hwish : ∀ transcript, (venue.cutConduct moment).wishes transcript false →
      transcript.length < moment := by
    intro transcript hfalse
    exact Nat.lt_of_not_le (of_decide_eq_false hfalse.symm)
  have hcalls := hcut.calls_drop hwish (by rw [List.drop_nil]; rfl)
  have hroom := Series.isFull_of_nil hempty
  by_cases hjob : FetchJob.Announceable ⟨request, plan, maxRetries⟩
  · constructor
    · intro _ _ _
      exact hjob
    · intro _
      rw [← hcap]
      exact cancelledCleanly_of_announceable venue hplan hseries hempty hrange hjob spacing world
        hcalls
  · cases hnonempty : plan.range.isEmpty with
    | true =>
        obtain ⟨rfl, hfreeCalls⟩ := hfree.of_isEmpty hnonempty
        obtain ⟨rfl, hcutCalls⟩ := hcut.of_isEmpty hnonempty
        constructor
        · exact fun _ _ => nofun
        · intro _
          apply CancelledCleanly.of_eq _ hcalls
          exact Prod.ext (hcutResult.trans hfreeResult.symm) (hcutCalls.trans hfreeCalls.symm)
    | false =>
        obtain ⟨rfl, hfreeCalls⟩ := hfree.of_not_announceable hnonempty hrange hjob hroom
          (venue.not_wishes_freeConduct [])
        rcases Nat.eq_zero_or_pos moment with rfl | hpos
        · have hwished : ¬ (venue.cutConduct 0).wishes [] false := Bool.noConfusion
          obtain ⟨rfl, -⟩ := hcut.of_wish_at_start hnonempty hroom hwished
          constructor
          · intro hclean
            have hsame := hclean.unaffected (by rw [hfreeCalls]; rfl)
            rw [hcutResult, hfreeResult] at hsame
            cases hsame
          · intro hwritable
            exact absurd (hwritable rfl rfl) hjob
        · have hunwished : ¬ (venue.cutConduct moment).wishes [] true := by
            intro htrue
            have hle : moment ≤ 0 := of_decide_eq_true htrue.symm
            omega
          obtain ⟨rfl, hcutCalls⟩ := hcut.of_not_announceable hnonempty hrange hjob hroom hunwished
          constructor
          · intro _ hzero
            omega
          · intro _
            apply CancelledCleanly.of_eq _ hcalls
            exact Prod.ext (hcutResult.trans hfreeResult.symm) (hcutCalls.trans hfreeCalls.symm)

theorem cancelledCleanly_busyAtFirst :
    let request : Request := ⟨"BTCUSDT", .minutes1, .linear, 1, by decide⟩
    (tracedFetch (Market.single.busyAtFirst.cancelledAt 1) 3 request
      ⟨-1, 2, by decide⟩ 5 ⟨.zero, none⟩ 0).1 = .error (.cancelled 0) := by
  intro request
  have hclean := (cancelledCleanly_iff Market.single.busyAtFirst request ⟨-1, 2, by decide⟩
    (by constructor <;> decide) 5 (by decide) 3 ⟨.zero, none⟩ 0 1).mpr nofun
  have hstopped := (hclean.stopped (by decide +kernel)).1
  refine hstopped.trans (congrArg (fun count => Except.error (Stop.cancelled count)) ?_)
  decide +kernel

end CandleHistory
