import CandleHistory.Proofs.PassingReplies
import CandleHistory.Proofs.PlannedCalls

/-!
Fetches whose calls have outcomes that are given as an endless sequence, whatever is called for. The
attempts for a chunk take from it the outcomes that follow on those before, so it is the number of
outcomes that pass from there on, next to the budget, that says how many attempts there are.
-/

namespace CandleHistory

/-- The number of outcomes that pass one after another, from the first one on, as far as a window
reaches. -/
def leadingPassing (outcomes : Nat → Reply) (first : Nat) : Nat → Nat
  | 0 => 0
  | window + 1 =>
    if (outcomes first).isPassing then leadingPassing outcomes (first + 1) window + 1 else 0

theorem leadingPassing_eq {outcomes : Nat → Reply} {first window count : Nat}
    (hpass : ∀ number < count, (outcomes (first + number)).isPassing = true)
    (hcount : count ≤ window)
    (hend : count < window → (outcomes (first + count)).isPassing = false) :
    leadingPassing outcomes first window = count := by
  induction count generalizing first window with
  | zero =>
      cases window with
      | zero => rfl
      | succ window =>
          have hfirst : (outcomes first).isPassing = false := hend (Nat.succ_pos window)
          rw [leadingPassing, hfirst, if_neg Bool.false_ne_true]
  | succ count ih =>
      obtain ⟨rest, rfl⟩ : ∃ rest, window = rest + 1 := ⟨window - 1, by omega⟩
      have hfirst : (outcomes first).isPassing = true := hpass 0 (Nat.succ_pos count)
      have hshift (number : Nat) : first + 1 + number = first + (number + 1) := by omega
      have hrest : leadingPassing outcomes (first + 1) rest = count := by
        apply ih
        · intro number hnumber
          rw [hshift]
          exact hpass (number + 1) (Nat.succ_lt_succ hnumber)
        · exact Nat.le_of_succ_le_succ hcount
        · intro hless
          rw [hshift]
          exact hend (Nat.succ_lt_succ hless)
      rw [leadingPassing, if_pos hfirst, hrest]

/-- The answer that came with an event, if it was a call. -/
def Event.answer? : Event → Option PageAnswer
  | called _ answer => some answer
  | reported _ => none

namespace Transcript

/-- The answers to all calls, in order. -/
def answers (transcript : Transcript) : List PageAnswer := transcript.filterMap Event.answer?

@[simp] theorem answers_append (first second : Transcript) :
    answers (first ++ second) = first.answers ++ second.answers := List.filterMap_append

theorem answers_called (call : PageCall) (tries : List PageAnswer) :
    answers (tries.map (.called call)) = tries := by
  induction tries with
  | nil => rfl
  | cons answer tries ih => exact congrArg (answer :: ·) ih

theorem length_answers (transcript : Transcript) :
    transcript.answers.length = transcript.calls.length := by
  induction transcript with
  | nil => rfl
  | cons event transcript ih =>
      cases event with
      | called call answer => exact congrArg Nat.succ ih
      | reported held => exact ih

/-- The answers are what the client makes of the outcomes, one after another. -/
def Reads (outcomes : Nat → Reply) (transcript : Transcript) : Prop :=
  transcript.answers =
    (List.range transcript.calls.length).map fun number => (outcomes number).read.result

theorem Reads.append_called {outcomes : Nat → Reply} {transcript : Transcript}
    (h : transcript.Reads outcomes) (call : PageCall) :
    Reads outcomes
      (transcript ++ [.called call (outcomes transcript.calls.length).read.result]) := by
  have hlength :
      calls (transcript ++ [.called call (outcomes transcript.calls.length).read.result]) =
        transcript.calls ++ [call] := calls_append _ _
  unfold Reads at h ⊢
  rw [answers_append, h, hlength, List.length_append, List.length_singleton, List.range_succ,
    List.map_append]
  rfl

theorem Reads.append_of_calls_eq_nil {outcomes : Nat → Reply} {transcript events : Transcript}
    (h : transcript.Reads outcomes) (hevents : events.calls = []) :
    Reads outcomes (transcript ++ events) := by
  have hanswers : events.answers = [] := by
    apply List.eq_nil_of_length_eq_zero
    rw [length_answers, hevents, List.length_nil]
  unfold Reads at h ⊢
  rw [answers_append, calls_append, hevents, hanswers, List.append_nil, List.append_nil, h]

theorem Reads.eq_of_getElem? {outcomes : Nat → Reply} {transcript : Transcript}
    (h : transcript.Reads outcomes) {number : Nat} {answer : PageAnswer}
    (hanswer : transcript.answers[number]? = some answer) :
    answer = (outcomes number).read.result := by
  unfold Reads at h
  rw [h, List.getElem?_map] at hanswer
  obtain ⟨other, hother, rfl⟩ := Option.map_eq_some_iff.mp hanswer
  obtain ⟨hlt, rfl⟩ := List.getElem?_eq_some_iff.mp hother
  rw [List.getElem_range]

end Transcript

namespace Attempts

variable {conduct : Conduct} {call : PageCall} {retries : Nat}

/-- The attempts in the midst of a transcript are given the outcomes that follow on those before. -/
theorem eq_of_reads (attempts : Attempts conduct call retries) {outcomes : Nat → Reply}
    {earlier later : Transcript}
    (h : Transcript.Reads outcomes (earlier ++ attempts.events ++ later)) {number : Nat}
    {answer : PageAnswer} (hanswer : attempts.tries[number]? = some answer) :
    answer = (outcomes (earlier.calls.length + number)).read.result := by
  apply h.eq_of_getElem?
  have hnumber : number < attempts.tries.length := (List.getElem?_eq_some_iff.mp hanswer).1
  rw [Transcript.answers_append, Transcript.answers_append, attempts.events_eq,
    Transcript.answers_called, ← earlier.length_answers, List.append_assoc,
    List.getElem?_append_right (Nat.le_add_right _ _), Nat.add_sub_cancel_left,
    List.getElem?_append_left hnumber]
  exact hanswer

theorem final_of_reads (attempts : Attempts conduct call retries) {outcomes : Nat → Reply}
    {earlier later : Transcript}
    (h : Transcript.Reads outcomes (earlier ++ attempts.events ++ later)) :
    attempts.final = (outcomes (earlier.calls.length + attempts.failures.length)).read.result :=
  attempts.eq_of_reads h List.getElem?_concat_length

theorem passing_of_reads (attempts : Attempts conduct call retries) {outcomes : Nat → Reply}
    {earlier later : Transcript}
    (h : Transcript.Reads outcomes (earlier ++ attempts.events ++ later)) {number : Nat}
    (hnumber : number < attempts.failures.length) :
    (outcomes (earlier.calls.length + number)).isPassing = true := by
  have htry : attempts.tries[number]? = some attempts.failures[number] := by
    unfold tries
    rw [List.getElem?_append_left hnumber, List.getElem?_eq_getElem hnumber]
  rw [← Reply.read_isTransient, ← attempts.eq_of_reads h htry]
  exact attempts.transient _ (List.getElem_mem hnumber)

/-- There is one attempt more than outcomes that pass, as far as the budget allows. -/
theorem length_of_reads (attempts : Attempts conduct call retries) {outcomes : Nat → Reply}
    {earlier later : Transcript}
    (h : Transcript.Reads outcomes (earlier ++ attempts.events ++ later)) :
    attempts.failures.length + 1 = min (retries + 1)
      (1 + leadingPassing outcomes earlier.calls.length (retries + 1)) := by
  have hfew := attempts.length_le
  have hpassing (number : Nat) (hnumber : number < attempts.failures.length) :
      (outcomes (earlier.calls.length + number)).isPassing = true :=
    attempts.passing_of_reads h hnumber
  have hfinal : attempts.final.isTransient =
      (outcomes (earlier.calls.length + attempts.failures.length)).isPassing := by
    rw [attempts.final_of_reads h, Reply.read_isTransient]
  -- The attempts have ended with an outcome that does not pass, or with the budget.
  cases hlast : attempts.final.isTransient with
  | false =>
      have hleading : leadingPassing outcomes earlier.calls.length (retries + 1) =
          attempts.failures.length :=
        leadingPassing_eq hpassing (by omega) fun _ => hfinal.symm.trans hlast
      omega
  | true =>
      have hexhausted := attempts.exhausted hlast
      have hleading : leadingPassing outcomes earlier.calls.length (retries + 1) = retries + 1 := by
        apply leadingPassing_eq
        · intro number hnumber
          rcases Nat.lt_succ_iff_lt_or_eq.mp hnumber with hless | rfl
          · exact hpassing number (hless.trans_eq hexhausted.symm)
          · rw [← hexhausted, ← hfinal]
            exact hlast
        · exact Nat.le_refl _
        · exact fun habsurd => absurd habsurd (Nat.lt_irrefl _)
      omega

/-- What follows on attempts that end with a page, without another call, does not end with a
failure. -/
theorem not_ends_with_failure (attempts : Attempts conduct call retries) {rows : Value}
    (hrows : attempts.final = .page rows) {earlier later : Transcript} (hlater : later.calls = [])
    (reason : PageError) (front : Transcript) (other : PageCall) :
    earlier ++ attempts.events ++ later ≠ front ++ [.called other (.failed reason)] := by
  intro hends
  rcases List.eq_nil_or_concat later with rfl | ⟨init, last, rfl⟩
  · unfold events at hends
    rw [List.append_nil, List.map_append, ← List.append_assoc, hrows] at hends
    cases (List.append_singleton_inj.mp hends).2
  · rw [List.concat_eq_append, ← List.append_assoc] at hends
    obtain rfl := (List.append_singleton_inj.mp hends).2
    rw [List.concat_eq_append, Transcript.calls_append] at hlater
    exact absurd hlater (List.append_ne_nil_of_right_ne_nil _ (List.cons_ne_nil _ _))

theorem eq_of_mem_calls (attempts : Attempts conduct call retries) {before : Transcript}
    {other : PageCall} (h : other ∈ Transcript.calls (before ++ attempts.events))
    (hnew : other ∉ before.calls) : call = other := by
  rw [Transcript.calls_append] at h
  exact Transcript.eq_of_mem_calls_called ((List.mem_append.mp h).resolve_left hnew)

end Attempts

namespace FetchJob

variable {conduct : Conduct} {job : FetchJob}

/-- The calls of a run are for chunks that have not been taken from the plan before. -/
theorem Run.exists_chunk {fuel : Nat} {next : Option Int} {series : Series Candle}
    {before : Transcript} {events : Transcript} {outcome : Except Stop (Series Candle)}
    (h : Run conduct job fuel next series before outcome (before ++ events)) {call : PageCall}
    (hcall : call ∈ events.calls) :
    ∃ chunk ∈ (job.plan.take fuel next).1, call = job.pageCall chunk := by
  obtain ⟨asked, left, made, htake, hcalls, hrepeated, -⟩ := h.exists_asked
  rw [Transcript.calls_append] at hcalls
  obtain rfl := List.append_cancel_left hcalls
  obtain ⟨chunk, hchunk, rfl⟩ := List.mem_map.mp (hrepeated.subset hcall)
  exact ⟨chunk, htake ▸ List.mem_append_left left hchunk, rfl⟩

/-- After a chunk, a run calls for later chunks only. -/
theorem Run.lt_start_of_mem {fuel : Nat} {start : Int} {series : Series Candle}
    {before events : Transcript} {outcome : Except Stop (Series Candle)}
    (h : Run conduct job fuel (job.plan.after? start) series before outcome (before ++ events))
    {call : PageCall} (hcall : call ∈ events.calls) : start < call.start := by
  obtain ⟨chunk, hchunk, rfl⟩ := h.exists_chunk hcall
  cases hnext : job.plan.after? start with
  | none =>
      rw [hnext, Plan.take_none] at hchunk
      cases hchunk
  | some next =>
      rw [hnext] at hchunk
      have hlater : start < next := Plan.lt_of_after? hnext
      have hstart : next ≤ chunk.start := Plan.start_le_of_mem_take hchunk
      exact hlater.trans_le hstart

theorem malformed_of_readPage {held count : Nat} {page : Value} {reason : PageError}
    (h : job.readPage held page = .error (.aborted reason count)) :
    ∃ fault, reason = .malformed fault := by
  unfold readPage at h
  split at h
  · cases h
  · split at h
    · cases h
    · cases h
      exact ⟨_, rfl⟩
    · cases h

/-- A run that aborts ends with a call that fails for the same reason, or with a page that has a row
that is refused. -/
theorem Run.of_aborted {fuel : Nat} {next : Option Int} {series : Series Candle}
    {before after : Transcript} {outcome : Except Stop (Series Candle)} {reason : PageError}
    {held : Nat} (h : Run conduct job fuel next series before outcome after)
    (houtcome : outcome = .error (.aborted reason held)) :
    (∃ fault, reason = .malformed fault) ∨
      ∃ earlier call, after = earlier ++ [.called call (.failed reason)] := by
  have hpageEnd {chunk : Chunk} {count retries number : Nat} {before after : Transcript}
      {result : Except Stop Value}
      (hpage : PageRun conduct job chunk count retries number before result after)
      (hresult : result = .error (.aborted reason held)) :
      ∃ earlier call, after = earlier ++ [.called call (.failed reason)] := by
    induction hpage with
    | cancelled hnumber hwish => cases hresult
    | unannounced hwish hfault => cases hresult
    | answered hattempt => cases hresult
    | broke hattempt => cases hresult
    | refused hattempt htransient =>
        cases hresult
        exact ⟨_, _, rfl⟩
    | exhausted hattempt htransient =>
        cases hresult
        exact ⟨_, _, rfl⟩
    | retried hattempt htransient hrun ih => exact ih hresult
  induction h with
  | finished => cases houtcome
  | spent => cases houtcome
  | full hfull => cases houtcome
  | cancelled hfull hwish => cases houtcome
  | failed hfull hwish hpage =>
      cases houtcome
      exact Or.inr (hpageEnd hpage rfl)
  | unreadable hfull hwish hpage hread =>
      cases houtcome
      exact Or.inl (malformed_of_readPage hread)
  | absorbed hfull hwish hpage hread hrun ih => exact ih houtcome

/-- For every call of a run there are attempts, one after another. Calls for earlier chunks come
before them and calls for later chunks after them. If their final answer is a failure, it ends the
run. -/
theorem Run.exists_attempts_of_mem {fuel : Nat} {next : Option Int} {series : Series Candle}
    {before after : Transcript} {outcome : Except Stop (Series Candle)}
    (h : Run conduct job fuel next series before outcome after)
    (hcalm : ∀ before, ¬ conduct.wishes before true) (hunasked : Unasked before next)
    {call : PageCall} (hcall : call ∈ after.calls) (hnew : call ∉ before.calls) :
    ∃ earlier later, ∃ attempts : Attempts conduct call job.maxRetries.toNat,
      after = earlier ++ attempts.events ++ later ∧
      (∀ other ∈ earlier.calls, other.start < call.start) ∧
      (∀ other ∈ later.calls, call.start < other.start) ∧
      ∀ reason, attempts.final = .failed reason →
        later = [] ∧ ∃ held, outcome = .error (.aborted reason held) := by
  induction fuel generalizing next series before with
  | zero =>
      cases h with
      | finished => exact absurd hcall hnew
      | spent => exact absurd hcall hnew
  | succ fuel ih =>
      cases next with
      | none =>
          obtain ⟨-, rfl⟩ := h.of_none
          exact absurd hcall hnew
      | some start =>
          cases hroom : series.isFull with
          | true =>
              obtain ⟨-, rfl⟩ := h.of_full hroom
              exact absurd hcall hnew
          | false =>
              rcases job.announcement_cases (job.plan.chunkAt start) with
                hannounced | ⟨fault, hfault⟩
              · obtain ⟨attempts, hchunk⟩ := h.exists_attempts hroom hcalm hannounced
                have hearlier : ∀ other ∈ before.calls, other.start < start := hunasked start rfl
                cases hchunk with
                | stopped hstop houtcome hafter =>
                    subst houtcome hafter
                    obtain rfl := attempts.eq_of_mem_calls hcall hnew
                    refine ⟨before, [], attempts, (List.append_nil _).symm, hearlier, nofun, ?_⟩
                    intro reason hreason
                    rw [hreason] at hstop
                    cases hstop
                    exact ⟨rfl, _, rfl⟩
                | @merged candles hread hrun =>
                    obtain ⟨rest, rfl⟩ := hrun.prefix
                    -- The call is for this chunk, or it is made in the rest of the run.
                    by_cases hthis : job.pageCall (job.plan.chunkAt start) = call
                    · subst hthis
                      refine ⟨before, .reported (series.add candles).size :: rest, attempts, ?_,
                        hearlier, fun other hother => hrun.lt_start_of_mem hother, ?_⟩
                      · rw [List.append_assoc _ [_]]
                        rfl
                      · intro reason hreason
                        rw [hreason] at hread
                        cases hread
                    · refine ih hrun (hunasked.after rfl attempts.tries _) fun hmem => ?_
                      rw [Transcript.calls_append _ [_], Transcript.calls_reported,
                        List.append_nil] at hmem
                      exact hthis (attempts.eq_of_mem_calls hmem hnew)
              · obtain ⟨-, rfl⟩ := h.of_unannounced hroom (hcalm _) (hfault 1)
                exact absurd hcall hnew

end FetchJob

end CandleHistory
