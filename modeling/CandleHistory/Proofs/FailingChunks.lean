import CandleHistory.Proofs.Attempts
import CandleHistory.Proofs.Collected
import CandleHistory.Proofs.Market
import CandleHistory.Proofs.Recording
import CandleHistory.Proofs.Rows

/-!
Chunks that fail, and how a fetch ends because of them. Whether a chunk fails is said here of the
answers alone that its attempts were given. The first chunk that fails ends the fetch at once, with
its own error and with the records of the chunks before it; a fetch without such a chunk gives a
series. Cancels and faults are left out.
-/

namespace CandleHistory

/-- The answer that came with an event, if the event is a given call. -/
def Event.answerTo? (call : PageCall) : Event → Option PageAnswer
  | called other answer => if other = call then some answer else none
  | reported _ => none

namespace Transcript

/-- The answers to a call, in order. -/
def answersTo (call : PageCall) (transcript : Transcript) : List PageAnswer :=
  transcript.filterMap (Event.answerTo? call)

@[simp] theorem answersTo_append (call : PageCall) (first second : Transcript) :
    answersTo call (first ++ second) = first.answersTo call ++ second.answersTo call :=
  List.filterMap_append

@[simp] theorem answersTo_reported (call : PageCall) (held : Nat) :
    answersTo call [.reported held] = [] := rfl

theorem answersTo_called (call : PageCall) (answers : List PageAnswer) :
    answersTo call (answers.map (.called call)) = answers := by
  induction answers with
  | nil => rfl
  | cons answer answers ih =>
      have hself : Event.answerTo? call (.called call answer) = some answer := if_pos rfl
      simp [answersTo, hself] at ih ⊢
      exact ih

theorem answersTo_called_of_ne {call other : PageCall} (hne : other ≠ call)
    (answers : List PageAnswer) : answersTo call (answers.map (.called other)) = [] := by
  have hother (answer : PageAnswer) : Event.answerTo? call (.called other answer) = none :=
    if_neg hne
  simp [answersTo, List.filterMap_map, hother]

theorem answersTo_eq_nil {call : PageCall} {transcript : Transcript}
    (h : call ∉ transcript.calls) : transcript.answersTo call = [] := by
  apply List.filterMap_eq_nil_iff.mpr
  intro event hevent
  cases event with
  | reported held => rfl
  | called other answer =>
      apply if_neg
      rintro rfl
      exact h (List.mem_filterMap.mpr ⟨_, hevent, rfl⟩)

end Transcript

/-- Attempts for a chunk with which it has failed: the last one meets an error that does not pass,
or it is the last that the budget allows and all have met errors that pass, or it is given a page
with a row that is refused. The error is that of the last attempt; of a page, that of the first such
row. -/
inductive Failing (interval : Interval) (budget : Nat) : List PageAnswer → PageError → Prop
  | refused {before reason} :
      reason.isTransient = false → Failing interval budget (before ++ [.failed reason]) reason
  | exhausted {before reason} :
      before.length + 1 = budget → (∀ answer ∈ before, answer.isTransient = true) →
      reason.isTransient = true → Failing interval budget (before ++ [.failed reason]) reason
  | malformed {before page rows row rest reason} :
      page.elements? = some (rows ++ row :: rest) →
      (∀ good ∈ rows, ∃ candle, Row.read interval good = .ok candle) →
      Row.read interval row = .refused reason →
      Failing interval budget (before ++ [.page page]) (.malformed reason)

/-- Attempts for a chunk with which it has succeeded: the last one within the budget is given a page
of rows that can all be read, after errors that pass. -/
def Succeeding (interval : Interval) (budget : Nat) (tries : List PageAnswer) : Prop :=
  ∃ before page rows candles, tries = before ++ [.page page] ∧ before.length < budget ∧
    (∀ answer ∈ before, answer.isTransient = true) ∧
    page.elements? = some rows ∧ Row.readAll interval rows = .ok candles

namespace Transcript

/-- A chunk, given by the call for its page, fails with an error in the course of its attempts. -/
def ChunkFails (interval : Interval) (budget : Nat) (transcript : Transcript) (call : PageCall)
    (reason : PageError) : Prop :=
  ∃ tries, tries <+: transcript.answersTo call ∧ Failing interval budget tries reason

/-- Every chunk that is asked for succeeds. -/
def AllSucceed (interval : Interval) (budget : Nat) (transcript : Transcript) : Prop :=
  ∀ call ∈ transcript.calls, Succeeding interval budget (transcript.answersTo call)

end Transcript

/-- An answer that is a page of rows, each of which is read or refused, or an error of a transport.
-/
def Deliverable (interval : Interval) : PageAnswer → Prop
  | .page page => ∃ rows, page.elements? = some rows ∧
      ∀ row ∈ rows, Row.read interval row ≠ .infiniteStart
  | .failed _ => True
  | .broke _ => False

/-- While the budget lasts, errors that pass do not make a chunk fail. -/
theorem not_failing_of_transient {interval : Interval} {budget : Nat} {tries : List PageAnswer}
    {reason : PageError} (hfew : tries.length < budget)
    (htransient : ∀ answer ∈ tries, answer.isTransient = true) :
    ¬ Failing interval budget tries reason := by
  intro hfailing
  cases hfailing with
  | @refused before reason hlasting =>
      have hlast : reason.isTransient = true := htransient (.failed reason) (by simp)
      rw [hlasting] at hlast
      cases hlast
  | exhausted hlength hbefore hlast =>
      rw [List.length_append, List.length_singleton, hlength] at hfew
      exact absurd hfew (Nat.lt_irrefl budget)
  | @malformed before page rows row rest reason helements hrows hrow =>
      have hlast : (PageAnswer.page page).isTransient = true := htransient _ (by simp)
      cases hlast

namespace FetchJob

variable {job : FetchJob} {held : Nat}

theorem readPage_of_refused {page : Value} {rows rest : List Value} {row : Value}
    {reason : RowError} (helements : page.elements? = some (rows ++ row :: rest))
    (hrows : ∀ good ∈ rows, ∃ candle, Row.read job.request.interval good = .ok candle)
    (hrow : Row.read job.request.interval row = .refused reason) :
    job.readPage held page = .error (.aborted (.malformed reason) held) := by
  have hread : Row.readAll job.request.interval (rows ++ row :: rest) = .refused reason :=
    Row.readAll_of_refused hrows hrow
  unfold readPage
  simp only [helements, hread]

/-- The last of the attempts that make a chunk fail ends the fetch with their error. -/
theorem chunkResult_of_failing {budget : Nat} {before : List PageAnswer} {final : PageAnswer}
    {reason : PageError} (h : Failing job.request.interval budget (before ++ [final]) reason) :
    job.chunkResult held final = .error (.aborted reason held) := by
  generalize htries : before ++ [final] = tries at h
  cases h with
  | refused hlasting =>
      obtain ⟨-, rfl⟩ := List.append_singleton_inj.mp htries
      rfl
  | exhausted hlength hbefore htransient =>
      obtain ⟨-, rfl⟩ := List.append_singleton_inj.mp htries
      rfl
  | malformed helements hrows hrow =>
      obtain ⟨-, rfl⟩ := List.append_singleton_inj.mp htries
      exact readPage_of_refused helements hrows hrow

theorem reason_eq_of_failing {budget : Nat} {before : List PageAnswer} {final : PageAnswer}
    {first second : PageError}
    (hfirst : Failing job.request.interval budget (before ++ [final]) first)
    (hsecond : Failing job.request.interval budget (before ++ [final]) second) :
    first = second := by
  have hstop : job.chunkResult 0 final = .error (.aborted first 0) := chunkResult_of_failing hfirst
  rw [chunkResult_of_failing hsecond] at hstop
  cases hstop
  rfl

theorem chunkResult_of_readAll {page : Value} {rows : List Value} {candles : List Candle}
    (helements : page.elements? = some rows)
    (hread : Row.readAll job.request.interval rows = .ok candles) :
    job.chunkResult held (.page page) = .ok candles := by
  simp [chunkResult, PageAnswer.outcome, Except.bind, readPage, helements, hread]

/-- The candles that a chunk brings are those that come with the answer that decides it. -/
theorem candles_of_chunkResult {call : PageCall} {answer : PageAnswer} {candles : List Candle}
    (h : job.chunkResult held answer = .ok candles) :
    Event.candles job.request.interval (.called call answer) = candles := by
  cases answer with
  | page page => exact pageCandles_of_readPage h
  | failed reason => cases h
  | broke fault => cases h

theorem not_failing_of_succeeding {budget : Nat} {tries shorter : List PageAnswer}
    {reason : PageError} (h : Succeeding job.request.interval budget tries)
    (hbegins : shorter <+: tries) : ¬ Failing job.request.interval budget shorter reason := by
  obtain ⟨before, page, rows, candles, rfl, hfew, htransient, helements, hread⟩ := h
  intro hfailing
  rcases List.prefix_concat_iff.mp hbegins with rfl | hshorter
  · have hok : job.chunkResult 0 (.page page) = .ok candles :=
      chunkResult_of_readAll helements hread
    rw [chunkResult_of_failing hfailing] at hok
    cases hok
  · have hlength := hshorter.length_le
    refine not_failing_of_transient (by omega) ?_ hfailing
    exact fun answer hmem => htransient answer (hshorter.subset hmem)

end FetchJob

namespace Attempts

variable {conduct : Conduct} {call : PageCall} {retries : Nat}

/-- All attempts for a chunk, the last one included. -/
def tries (attempts : Attempts conduct call retries) : List PageAnswer :=
  attempts.failures ++ [attempts.final]

theorem events_eq (attempts : Attempts conduct call retries) :
    attempts.events = attempts.tries.map (.called call) := rfl

/-- Attempts that fail after some number of answers fail with the last of them. -/
theorem eq_tries_of_failing (attempts : Attempts conduct call retries) {interval : Interval}
    {shorter : List PageAnswer} {reason : PageError} (hbegins : shorter <+: attempts.tries)
    (hfailing : Failing interval (retries + 1) shorter reason) : shorter = attempts.tries := by
  rcases List.prefix_concat_iff.mp hbegins with heq | hshorter
  · exact heq
  · have hfew := hshorter.length_le.trans attempts.length_le
    refine absurd hfailing (not_failing_of_transient (by omega) ?_)
    exact fun answer hmem => attempts.transient answer (hshorter.subset hmem)

/-- If the final attempt ends the fetch, the chunk fails, and it is its error that ends it. -/
theorem failing_of_error (attempts : Attempts conduct call retries) {job : FetchJob} {held : Nat}
    {stop : Stop} (hfinal : Deliverable job.request.interval attempts.final)
    (h : job.chunkResult held attempts.final = .error stop) :
    ∃ reason, stop = .aborted reason held ∧
      Failing job.request.interval (retries + 1) attempts.tries reason := by
  have hexhausted := attempts.exhausted
  have htransient := attempts.transient
  unfold tries
  generalize attempts.failures = failures at hexhausted htransient ⊢
  generalize attempts.final = final at hfinal h hexhausted ⊢
  cases final with
  | broke fault => exact absurd hfinal id
  | failed reason =>
      cases h
      refine ⟨reason, rfl, ?_⟩
      cases hreason : reason.isTransient with
      | false => exact .refused hreason
      | true => exact .exhausted (congrArg Nat.succ (hexhausted hreason)) htransient hreason
  | page page =>
      obtain ⟨rows, helements, hrows⟩ := hfinal
      rcases Row.readAll_cases hrows with
        ⟨candles, hcandles⟩ | ⟨before, row, rest, reason, rfl, hgood, hrow⟩
      · rw [FetchJob.chunkResult_of_readAll helements hcandles] at h
        cases h
      · have hread : job.chunkResult held (.page page) =
            .error (.aborted (.malformed reason) held) :=
          FetchJob.readPage_of_refused helements hgood hrow
        rw [hread] at h
        cases h
        exact ⟨.malformed reason, rfl, .malformed helements hgood hrow⟩

theorem succeeding_of_ok (attempts : Attempts conduct call retries) {job : FetchJob} {held : Nat}
    {candles : List Candle} (hfinal : Deliverable job.request.interval attempts.final)
    (h : job.chunkResult held attempts.final = .ok candles) :
    Succeeding job.request.interval (retries + 1) attempts.tries := by
  have hfew : attempts.failures.length < retries + 1 := Nat.lt_succ_of_le attempts.length_le
  have htransient := attempts.transient
  unfold tries
  generalize attempts.final = final at hfinal h ⊢
  cases final with
  | broke fault => cases h
  | failed reason => cases h
  | page page =>
      obtain ⟨rows, helements, hrows⟩ := hfinal
      rcases Row.readAll_cases hrows with
        ⟨read, hread⟩ | ⟨before, row, rest, reason, rfl, hgood, hrow⟩
      · exact ⟨_, page, rows, read, rfl, hfew, htransient, helements, hread⟩
      · have hstop : job.chunkResult held (.page page) =
            .error (.aborted (.malformed reason) held) :=
          FetchJob.readPage_of_refused helements hgood hrow
        rw [hstop] at h
        cases h

/-- Only the page of the final attempt brings candles. -/
theorem collected_events (attempts : Attempts conduct call retries) (interval : Interval)
    (before : Transcript) :
    Transcript.collected interval (before ++ attempts.events) =
      extend (before.collected interval)
        (Event.candles interval (.called call attempts.final)) := by
  have hfailures (answers : List PageAnswer)
      (h : ∀ answer ∈ answers, answer.isTransient = true) :
      Transcript.collected interval (before ++ answers.map (.called call)) =
        before.collected interval := by
    induction answers using List.reverseRecOn with
    | nil => simp
    | append_singleton answers answer ih =>
        obtain ⟨hanswers, hanswer⟩ := List.forall_mem_append.mp h
        have hnothing : Event.candles interval (.called call answer) = [] := by
          have htransient := hanswer answer List.mem_cons_self
          cases answer with
          | page page => cases htransient
          | failed reason => rfl
          | broke fault => rfl
        rw [List.map_append, ← List.append_assoc, List.map_singleton,
          Transcript.collected_append_event, ih hanswers, hnothing, extend_nil]
  unfold events
  rw [List.map_append, ← List.append_assoc, List.map_singleton,
    Transcript.collected_append_event, hfailures _ attempts.transient]

end Attempts

namespace Transcript

variable {interval : Interval} {budget : Nat} {transcript : Transcript}

@[simp] theorem calls_reported (held : Nat) : calls [.reported held] = [] := rfl

theorem eq_of_mem_calls_called {call other : PageCall} {answers : List PageAnswer}
    (h : other ∈ calls (answers.map (.called call))) : call = other := by
  obtain ⟨event, hevent, hother⟩ := List.mem_filterMap.mp h
  obtain ⟨answer, -, rfl⟩ := List.mem_map.mp hevent
  exact Option.some.inj hother

theorem AllSucceed.append_reported (h : AllSucceed interval budget transcript) (held : Nat) :
    AllSucceed interval budget (transcript ++ [.reported held]) := by
  intro call hcall
  have hold : call ∈ transcript.calls := by simpa using hcall
  simpa using h call hold

theorem AllSucceed.append_tries {call : PageCall} {tries : List PageAnswer}
    (h : AllSucceed interval budget transcript) (hnew : call ∉ transcript.calls)
    (hsucceeding : Succeeding interval budget tries) :
    AllSucceed interval budget (transcript ++ tries.map (.called call)) := by
  intro other hother
  rw [answersTo_append]
  by_cases hsame : call = other
  · subst hsame
    rw [answersTo_eq_nil hnew, List.nil_append, answersTo_called]
    exact hsucceeding
  · rw [answersTo_called_of_ne hsame, List.append_nil]
    rw [calls_append] at hother
    rcases List.mem_append.mp hother with hold | hcalled
    · exact h other hold
    · exact absurd (eq_of_mem_calls_called hcalled) hsame

theorem AllSucceed.not_chunkFails {job : FetchJob}
    (h : AllSucceed job.request.interval budget transcript) (call : PageCall)
    (reason : PageError) : ¬ ChunkFails job.request.interval budget transcript call reason := by
  rintro ⟨tries, hbegins, hfailing⟩
  by_cases hcall : call ∈ transcript.calls
  · exact FetchJob.not_failing_of_succeeding (h call hcall) hbegins hfailing
  · have hnil : tries = [] := List.prefix_nil.mp (answersTo_eq_nil hcall ▸ hbegins)
    rw [hnil] at hfailing
    generalize hnothing : ([] : List PageAnswer) = nothing at hfailing
    cases hfailing <;> simp at hnothing

end Transcript

namespace FetchJob

variable {conduct : Conduct} {job : FetchJob}

/-- The most attempts for one chunk. -/
def budget (job : FetchJob) : Nat := job.maxRetries.toNat + 1

/-- How a run over chunks ends: every chunk that was asked for has succeeded and the series holds
their candles, or the last one that was asked for has failed and the run ends with its error. -/
inductive Concluded (conduct : Conduct) (job : FetchJob) (cap : Nat) :
    Except Stop (Series Candle) → Transcript → Prop
  | returned {series after} :
      after.AllSucceed job.request.interval job.budget →
      series.kept = after.collected job.request.interval → series.cap = cap →
      Concluded conduct job cap (.ok series) after
  | aborted {earlier call reason} (attempts : Attempts conduct call job.maxRetries.toNat) :
      earlier.AllSucceed job.request.interval job.budget → call ∉ earlier.calls →
      Failing job.request.interval job.budget attempts.tries reason →
      Concluded conduct job cap
        (.error (.aborted reason (min (earlier.collected job.request.interval).length cap)))
        (earlier ++ attempts.events)

/-- Before the chunk that starts at an instant, only chunks that start earlier are asked for. -/
def Unasked (before : Transcript) (next : Option Int) : Prop :=
  ∀ start, next = some start → ∀ call ∈ before.calls, call.start < start

theorem Unasked.after {before : Transcript} {start : Int} {plan : Plan} {call : PageCall}
    (h : Unasked before (some start)) (hcall : call.start = start) (answers : List PageAnswer)
    (held : Nat) :
    Unasked (before ++ answers.map (.called call) ++ [.reported held]) (plan.after? start) := by
  intro next hnext other hother
  have hlater : start < next := Plan.lt_of_after? hnext
  rw [Transcript.calls_append, Transcript.calls_reported, List.append_nil,
    Transcript.calls_append] at hother
  rcases List.mem_append.mp hother with hold | hcalled
  · exact Int.lt_trans (h start rfl other hold) hlater
  · rw [← Transcript.eq_of_mem_calls_called hcalled, hcall]
    exact hlater

theorem Unasked.not_mem {before : Transcript} {start : Int} {call : PageCall}
    (h : Unasked before (some start)) (hcall : call.start = start) : call ∉ before.calls := by
  intro hmem
  have hlt := h start rfl call hmem
  omega

/-- A run without cancels and faults is concluded. The invariant is that the series holds what the
transcript brought, and that the chunks from the next one on have not been asked for. -/
theorem Run.concluded {fuel : Nat} {next : Option Int} {series : Series Candle}
    {before after : Transcript} {outcome : Except Stop (Series Candle)}
    (h : Run conduct job fuel next series before outcome after)
    (hanswers : ∀ call answer, conduct.answers call answer →
      Deliverable job.request.interval answer)
    (hcalm : ∀ before, ¬ conduct.wishes before true) (hrange : job.plan.range.InCalendar)
    (hjob : job.Announceable) (hwithin : job.plan.Within fuel next)
    (hunasked : Unasked before next)
    (hbefore : before.AllSucceed job.request.interval job.budget)
    (hkept : series.kept = before.collected job.request.interval) :
    Concluded conduct job series.cap outcome after := by
  induction fuel generalizing next series before with
  | zero =>
      cases next with
      | none =>
          obtain ⟨rfl, rfl⟩ := h.of_none
          exact .returned hbefore hkept rfl
      | some start => exact absurd hwithin.fuel_pos (Nat.lt_irrefl 0)
  | succ fuel ih =>
      cases next with
      | none =>
          obtain ⟨rfl, rfl⟩ := h.of_none
          exact .returned hbefore hkept rfl
      | some start =>
          cases hroom : series.isFull with
          | true =>
              obtain ⟨rfl, rfl⟩ := h.of_full hroom
              exact .returned hbefore hkept rfl
          | false =>
              obtain ⟨span, hspan⟩ := hwithin.spanText_isOk hrange
              obtain ⟨attempts, hchunk⟩ :=
                h.exists_attempts hroom hcalm (announcement_of_announceable hspan hjob)
              have hfinal : Deliverable job.request.interval attempts.final :=
                hanswers _ _ (attempts.answered _ (List.mem_append_right _ List.mem_cons_self))
              have hnew : job.pageCall (job.plan.chunkAt start) ∉ before.calls :=
                hunasked.not_mem rfl
              cases hchunk with
              | stopped hstopped houtcome hafter =>
                  obtain ⟨reason, rfl, hfailing⟩ := attempts.failing_of_error hfinal hstopped
                  subst houtcome hafter
                  unfold Series.size
                  rw [hkept]
                  exact .aborted attempts hbefore hnew hfailing
              | @merged candles hread hrun =>
                  have hsucceeding := attempts.succeeding_of_ok hfinal hread
                  apply ih hrun hwithin.after
                  · exact hunasked.after rfl attempts.tries _
                  · exact (hbefore.append_tries hnew hsucceeding).append_reported _
                  · rw [Transcript.collected_append_of_calls_eq_nil rfl,
                      attempts.collected_events, ← hkept, candles_of_chunkResult hread]
                    rfl

end FetchJob

/-- What it means that a fetch aborts exactly. It gives a series if every chunk it asks for
succeeds, and only then; likewise if none fails. The series are the records that were merged, up to
the cap. If a chunk fails with some of its attempts, then the chunks before it have succeeded, the
last of these attempts was the last event of all, and the fetch ends with their error and the number
of records of the chunks before. -/
structure AbortsExactly (interval : Interval) (cap budget : Nat)
    (run : Except Stop (List Candle) × Transcript) : Prop where
  returns_iff_succeed : (∃ candles, run.1 = .ok candles) ↔ run.2.AllSucceed interval budget
  returns_iff_none_fails : (∃ candles, run.1 = .ok candles) ↔
    ∀ call reason, ¬ run.2.ChunkFails interval budget call reason
  returned : ∀ candles, run.1 = .ok candles → candles = (run.2.collected interval).take cap
  aborts : ∀ call tries reason, tries <+: run.2.answersTo call →
    Failing interval budget tries reason →
    ∃ earlier : Transcript, run.2 = earlier ++ tries.map (.called call) ∧ call ∉ earlier.calls ∧
      earlier.AllSucceed interval budget ∧
      run.1 = .error (.aborted reason (min (earlier.collected interval).length cap))

namespace FetchJob

variable {conduct : Conduct} {job : FetchJob}

theorem Concluded.abortsExactly {cap : Nat} {outcome : Except Stop (Series Candle)}
    {after : Transcript} (h : Concluded conduct job cap outcome after) :
    AbortsExactly job.request.interval cap job.budget (outcome.map Series.result, after) := by
  cases h with
  | @returned series after hsucceed hkept hcap =>
      have hreturns : ∃ candles,
          (Except.ok series : Except Stop _).map Series.result = .ok candles :=
        ⟨series.result, rfl⟩
      refine ⟨⟨fun _ => hsucceed, fun _ => hreturns⟩,
        ⟨fun _ => hsucceed.not_chunkFails, fun _ => hreturns⟩, ?_, ?_⟩
      · intro candles hcandles
        cases hcandles
        rw [Series.result, hkept, hcap]
      · intro call tries reason hbegins hfailing
        exact absurd ⟨tries, hbegins, hfailing⟩ (hsucceed.not_chunkFails call reason)
  | @aborted earlier call reason attempts hearlier hnew hfailing =>
      have hno (held : Nat) : ¬ ∃ candles : List Candle,
          Except.map Series.result (.error (Stop.aborted reason held)) = .ok candles := nofun
      have hanswers : (earlier ++ attempts.events).answersTo call = attempts.tries := by
        rw [Transcript.answersTo_append, Transcript.answersTo_eq_nil hnew, attempts.events_eq,
          Transcript.answersTo_called, List.nil_append]
      have hfails : (earlier ++ attempts.events).ChunkFails job.request.interval job.budget call
          reason := ⟨attempts.tries, hanswers ▸ List.prefix_rfl, hfailing⟩
      refine ⟨⟨fun h => absurd h (hno _), fun h => ?_⟩, ⟨fun h => absurd h (hno _), fun h => ?_⟩,
        nofun, ?_⟩
      · exact absurd hfails (h.not_chunkFails call reason)
      · exact absurd hfails (h call reason)
      · intro other tries found hbegins htries
        by_cases hsame : call = other
        · subst hsame
          rw [hanswers] at hbegins
          obtain rfl := attempts.eq_tries_of_failing hbegins htries
          obtain rfl := reason_eq_of_failing htries hfailing
          exact ⟨earlier, rfl, hnew, hearlier, rfl⟩
        · rw [Transcript.answersTo_append, attempts.events_eq,
            Transcript.answersTo_called_of_ne hsame, List.append_nil] at hbegins
          exact absurd ⟨tries, hbegins, htries⟩ (hearlier.not_chunkFails other found)

end FetchJob

variable {σ τ : Type} [TimeNumber τ]

/-- An uncancelled fetch whose transport gives pages and transport errors aborts exactly. The one
thing that can keep it from that is a number of attempts that has too many digits to be announced.
-/
theorem tracedFetch_abortsExactly (request : Request) (venue : Venue τ (StateM σ))
    (hanswers : ∀ call world, Deliverable request.interval (venue.call call world).1)
    (hcalm : ∀ world, (venue.cancelRequested world).1 = false)
    (range : DateRange) (hrange : range.InCalendar)
    (maxRecords : Int) (hrecords : 1 ≤ maxRecords) (maxRetries : Int) (spacing : Spacing τ)
    (world : σ) :
    let run := tracedFetch venue.recorded maxRetries request range maxRecords spacing world
    (range.isEmpty = true ∨ (maxRetries + 1).natAbs < Number.integerBound →
      AbortsExactly request.interval maxRecords.toNat (max 1 (maxRetries + 1)).toNat run) ∧
    (¬ (range.isEmpty = true ∨ (maxRetries + 1).natAbs < Number.integerBound) →
      run = (.error (.broke .tooManyDigits), [])) := by
  intro run
  obtain ⟨plan, hplan, rfl, -, -⟩ := Plan.make_isOk range request.interval request.one_le_limit
  obtain ⟨series, hseries, hempty, hcap⟩ := Series.make_isOk Candle hrecords
  obtain ⟨outcome, hrun, hresult⟩ := venue.recorded_records.tracedFetch hplan hseries
    (Plan.announceable_of_make hplan hrange) maxRetries spacing world
  have hpair : run = (outcome.map Series.result, run.2) := Prod.ext hresult rfl
  have hbudget : (max 1 (maxRetries + 1)).toNat =
      FetchJob.budget ⟨request, plan, maxRetries⟩ := by
    change (max 1 (maxRetries + 1)).toNat = maxRetries.toNat + 1
    omega
  have hanswers : ∀ call answer, venue.conduct.answers call answer →
      Deliverable request.interval answer := by
    rintro call _ ⟨world, rfl⟩
    exact hanswers call world
  have hcalm := venue.not_wishes_conduct hcalm
  have hnothing : series.kept = Transcript.collected request.interval [] := hempty
  have hnone : Transcript.AllSucceed request.interval
      (FetchJob.budget ⟨request, plan, maxRetries⟩) [] := nofun
  rw [hpair, hbudget, ← hcap]
  refine ⟨fun hsmall => ?_, fun hlarge => ?_⟩
  · by_cases hrangeEmpty : plan.range.isEmpty = true
    · obtain ⟨rfl, hafter⟩ := hrun.of_isEmpty hrangeEmpty
      have hsilent : run.2 = [] := hafter
      have hconcluded : FetchJob.Concluded venue.conduct ⟨request, plan, maxRetries⟩ series.cap
          (.ok series) [] := .returned hnone hnothing rfl
      rw [hsilent]
      exact hconcluded.abortsExactly
    · have hjob : FetchJob.Announceable ⟨request, plan, maxRetries⟩ :=
        hsmall.resolve_left hrangeEmpty
      have hconcluded := hrun.concluded hanswers hcalm hrange hjob plan.within_first
        (fun start hstart => nofun) hnone hnothing
      exact hconcluded.abortsExactly
  · obtain ⟨hrangeEmpty, hjob⟩ := not_or.mp hlarge
    obtain ⟨rfl, hafter⟩ := hrun.of_not_announceable (eq_false_of_ne_true hrangeEmpty) hrange hjob
      (Series.isFull_of_nil hempty) (hcalm [])
    have hsilent : run.2 = [] := hafter
    rw [hsilent]
    rfl

/-- A venue that answers its calls one after another, whatever they are. The state counts them. -/
def Venue.inTurn (answer : Nat → PageAnswer) : Venue Number.Binary64 (StateM Nat) where
  now := pure .zero
  sleep _ := pure ()
  log _ := pure ()
  call _ count := (answer count, count + 1)
  cancelRequested := pure false
  report _ := pure none

/-- A page with one candle, then an error that passes, then a page whose second row is none. -/
def brokenPageAnswers : Nat → PageAnswer
  | 0 => .page (.list [Market.single.row 0])
  | 1 => .failed (.transient "busy")
  | _ => .page (.list [Market.single.row 60000, .integer 7])

theorem tracedFetch_abortsExactly_brokenPage :
    let run := tracedFetch (Venue.inTurn brokenPageAnswers).recorded 1
      ⟨"BTCUSDT", .minutes1, .linear, 1, by decide⟩ ⟨0, 180000, by decide⟩ 5 ⟨.zero, none⟩ 0
    AbortsExactly .minutes1 5 2 run ∧ run.2.calls.map PageCall.start = [0, 60000, 60000] := by
  have hcount : ((1 : Int) + 1).natAbs < Number.integerBound :=
    Number.lt_integerBound_of_lt_twoPow (by decide)
  have hrow (t : Int) : Row.read .minutes1 (Market.single.row t) ≠ .infiniteStart := by
    have hread : Row.read .minutes1 (Market.single.row t) = .ok (Market.single.candle t) := rfl
    rw [hread]
    exact nofun
  have hanswers (call : PageCall) (count : Nat) :
      Deliverable .minutes1 ((Venue.inTurn brokenPageAnswers).call call count).1 := by
    rcases count with _ | _ | count
    · exact ⟨_, rfl, List.forall_mem_cons.mpr ⟨hrow 0, nofun⟩⟩
    · exact trivial
    · exact ⟨_, rfl, List.forall_mem_cons.mpr ⟨hrow 60000, List.forall_mem_cons.mpr ⟨nofun, nofun⟩⟩⟩
  have hrun := tracedFetch_abortsExactly ⟨"BTCUSDT", .minutes1, .linear, 1, by decide⟩
    (Venue.inTurn brokenPageAnswers) hanswers (fun _ => rfl) ⟨0, 180000, by decide⟩
    (by constructor <;> decide) 5 (by decide) 1 ⟨.zero, none⟩ 0
  exact ⟨hrun.1 (Or.inr hcount), by decide +kernel⟩

end CandleHistory
