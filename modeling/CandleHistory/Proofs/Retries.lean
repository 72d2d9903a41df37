import CandleHistory.Proofs.Attempts
import CandleHistory.Proofs.Market
import CandleHistory.Proofs.Recording
import Mathlib.Data.List.Destutter

/-!
Failures that pass, and what is left of them. A fetch that meets such failures now and then, but
never more of them in a chunk than there are retries, is compared with a fetch that meets none: the
two differ in nothing but calls that are made again.
-/

namespace CandleHistory

namespace Event

/-- Whether something was a call that failed for a passing reason. -/
def isFailure : Event → Bool
  | called _ answer => answer.isTransient
  | reported _ => false

/-- Whether something was a given call that failed for a passing reason. -/
def isFailureOf (call : PageCall) (event : Event) : Bool :=
  decide (event.call? = some call) && event.isFailure

end Event

namespace Transcript

/-- How often a call failed for a passing reason. -/
def failuresOf (call : PageCall) (transcript : Transcript) : Nat :=
  transcript.countP (Event.isFailureOf call)

theorem failuresOf_append (call : PageCall) (first second : Transcript) :
    failuresOf call (first ++ second) = first.failuresOf call + second.failuresOf call :=
  List.countP_append

theorem failuresOf_mono (call : PageCall) {first second : Transcript} (h : first <+: second) :
    first.failuresOf call ≤ second.failuresOf call :=
  h.sublist.countP_le

theorem failuresOf_le (call : PageCall) (transcript : Transcript) :
    transcript.failuresOf call ≤ transcript.countP Event.isFailure := by
  apply List.countP_mono_left
  intro event _ hfailure
  exact (Bool.and_eq_true_iff.mp hfailure).2

theorem calls_called (call : PageCall) (answers : List PageAnswer) :
    calls (answers.map (Event.called call)) = List.replicate answers.length call := by
  induction answers with
  | nil => rfl
  | cons answer answers ih => exact congrArg (call :: ·) ih

theorem reports_called (call : PageCall) (answers : List PageAnswer) :
    reports (answers.map (Event.called call)) = [] := by
  induction answers with
  | nil => rfl
  | cons answer answers ih => exact ih

/-- Answers that all ask for another attempt all count as failures. -/
theorem failuresOf_called {call : PageCall} {answers : List PageAnswer}
    (h : ∀ answer ∈ answers, answer.isTransient = true) :
    failuresOf call (answers.map (Event.called call)) = answers.length := by
  unfold failuresOf
  rw [List.countP_map, List.countP_eq_length]
  intro answer hanswer
  change (decide (some call = some call) && answer.isTransient) = true
  rw [h answer hanswer, decide_eq_true rfl]
  rfl

end Transcript

/-- A call that is repeated some times counts once, if a different one follows. -/
theorem destutter_replicate_append {call : PageCall} {rest : List PageCall} (times : Nat)
    (h : rest.head? ≠ some call) :
    (List.replicate (times + 1) call ++ rest).destutter (· ≠ ·) =
      call :: rest.destutter (· ≠ ·) := by
  rw [List.replicate_succ, List.cons_append, List.destutter_cons']
  induction times with
  | zero =>
      cases rest with
      | nil => rfl
      | cons next rest =>
          have hne : call ≠ next := by
            rintro rfl
            exact h rfl
          rw [List.replicate_zero, List.nil_append, List.destutter'_cons_pos _ hne,
            List.destutter_cons']
  | succ times ih =>
      have hsame : ¬ call ≠ call := fun hne => hne rfl
      rw [List.replicate_succ, List.cons_append, List.destutter'_cons_neg _ hsame, ih]

namespace Attempts

variable {conduct : Conduct} {call : PageCall} {retries : Nat}

theorem calls_events (attempts : Attempts conduct call retries) :
    attempts.events.calls = List.replicate (attempts.failures.length + 1) call := by
  unfold events
  rw [Transcript.calls_called, List.length_append]
  rfl

theorem reports_events (attempts : Attempts conduct call retries) :
    attempts.events.reports = [] :=
  Transcript.reports_called call _

/-- If even the final attempt failed for a passing reason, there were more failures than retries. -/
theorem failuresOf_events (attempts : Attempts conduct call retries)
    (h : attempts.final.isTransient = true) : attempts.events.failuresOf call = retries + 1 := by
  have hall : ∀ answer ∈ attempts.failures ++ [attempts.final], answer.isTransient = true := by
    intro answer hanswer
    rcases List.mem_append.mp hanswer with hfailure | hfinal
    · exact attempts.transient answer hfailure
    · rw [List.mem_singleton.mp hfinal]
      exact h
  unfold events
  rw [Transcript.failuresOf_called hall, List.length_append, attempts.exhausted h]
  rfl

/-- Where every answer is one that asks for no other attempt, the first attempt is the final one. -/
theorem of_steady (attempts : Attempts conduct call retries) {reply : PageAnswer}
    (hreply : reply.isTransient = false)
    (h : ∀ answer, conduct.answers call answer → answer = reply) :
    attempts.failures = [] ∧ attempts.final = reply := by
  constructor
  · apply List.eq_nil_iff_forall_not_mem.mpr
    intro failure hfailure
    have hanswer := attempts.answered failure (List.mem_append_left _ hfailure)
    have htransient := attempts.transient failure hfailure
    rw [h failure hanswer, hreply] at htransient
    cases htransient
  · exact h _ (attempts.answered _ (List.mem_append_right _ List.mem_cons_self))

/-- Where every answer that does not ask for another attempt is the same one, that is the final one,
unless there are more failures than retries in the end. -/
theorem of_shaky (attempts : Attempts conduct call retries) {reply : PageAnswer}
    {before after : Transcript}
    (h : ∀ answer, conduct.answers call answer → answer = reply ∨ answer.isTransient = true)
    (hafter : before ++ attempts.events <+: after) (hfew : after.failuresOf call ≤ retries) :
    attempts.final = reply := by
  have hanswer := attempts.answered attempts.final (List.mem_append_right _ List.mem_cons_self)
  rcases h _ hanswer with hreply | htransient
  · exact hreply
  · have hmany := attempts.failuresOf_events htransient
    have hmono := Transcript.failuresOf_mono call hafter
    rw [Transcript.failuresOf_append] at hmono
    omega

end Attempts

/-- Two runs from the same point come to the same end, and what they add to their transcripts is the
same but for calls that the second run repeats. The first call is for the next chunk. -/
def Alike (next : Option Int) (before before' : Transcript)
    (outcome outcome' : Except Stop (Series Candle)) (after after' : Transcript) : Prop :=
  ∃ events events' : Transcript, after = before ++ events ∧ after' = before' ++ events' ∧
    outcome' = outcome ∧ events'.reports = events.reports ∧
    events'.calls.destutter (· ≠ ·) = events.calls ∧
    ∀ call, events'.calls.head? = some call → next = some call.start

namespace Alike

variable {next : Option Int} {before before' after after' : Transcript}
  {outcome outcome' : Except Stop (Series Candle)}

theorem of_eq (houtcome : outcome' = outcome) (hafter : after = before)
    (hafter' : after' = before') : Alike next before before' outcome outcome' after after' := by
  subst houtcome hafter hafter'
  exact ⟨[], [], (List.append_nil _).symm, (List.append_nil _).symm, rfl, rfl, rfl, nofun⟩

/-- Attempts for one chunk in front of runs that are alike: those of the first run a single one. -/
theorem attempts {clean rough : Conduct} {call : PageCall} {retries : Nat}
    {steady : Attempts clean call retries} (hsteady : steady.failures = [])
    {shaky : Attempts rough call retries} (hnext : next ≠ some call.start)
    (h : Alike next (before ++ steady.events) (before' ++ shaky.events) outcome outcome' after
      after') :
    Alike (some call.start) before before' outcome outcome' after after' := by
  obtain ⟨events, events', hafter, hafter', houtcome, hreports, hcalls, hhead⟩ := h
  refine ⟨steady.events ++ events, shaky.events ++ events', ?_, ?_, houtcome, ?_, ?_, ?_⟩
  · rw [hafter, List.append_assoc]
  · rw [hafter', List.append_assoc]
  · rw [Transcript.reports_append, Transcript.reports_append, steady.reports_events,
      shaky.reports_events, hreports]
  · have hother : events'.calls.head? ≠ some call := fun hcall => hnext (hhead call hcall)
    rw [Transcript.calls_append, Transcript.calls_append, steady.calls_events, shaky.calls_events,
      destutter_replicate_append _ hother, hcalls, hsteady]
    rfl
  · intro other hother
    rw [Transcript.calls_append, shaky.calls_events, List.replicate_succ] at hother
    cases hother
    rfl

/-- The same report in front of runs that are alike. -/
theorem report {held : Nat}
    (h : Alike next (before ++ [.reported held]) (before' ++ [.reported held]) outcome outcome'
      after after') :
    Alike next before before' outcome outcome' after after' := by
  obtain ⟨events, events', hafter, hafter', houtcome, hreports, hcalls, hhead⟩ := h
  refine ⟨.reported held :: events, .reported held :: events', ?_, ?_, houtcome, ?_, hcalls, hhead⟩
  · rw [hafter, List.append_assoc]
    rfl
  · rw [hafter', List.append_assoc]
    rfl
  · exact congrArg (held :: ·) hreports

end Alike

namespace FetchJob

variable {job : FetchJob} {answer : PageCall → PageAnswer} {clean rough : Conduct}

/-- If the attempts for a chunk end up with the same answer, and runs that follow on them are alike,
then so are the runs that begin with the attempts. -/
theorem Aftermath.alike {fuel : Nat} {start : Int} {series : Series Candle}
    {before before' after after' : Transcript} {outcome outcome' : Except Stop (Series Candle)}
    {steady : Attempts clean (job.pageCall (job.plan.chunkAt start)) job.maxRetries.toNat}
    {shaky : Attempts rough (job.pageCall (job.plan.chunkAt start)) job.maxRetries.toNat}
    (h : Aftermath clean job fuel start series before steady outcome after)
    (h' : Aftermath rough job fuel start series before' shaky outcome' after')
    (hsteady : steady.failures = []) (hsame : shaky.final = steady.final)
    (hrest : ∀ {candles : List Candle} {middle middle' : Transcript},
      Run clean job fuel (job.plan.after? start) (series.add candles) middle outcome after →
      Run rough job fuel (job.plan.after? start) (series.add candles) middle' outcome' after' →
      Alike (job.plan.after? start) middle middle' outcome outcome' after after') :
    Alike (some start) before before' outcome outcome' after after' := by
  cases h with
  | stopped hstop houtcome hafter =>
      cases h' with
      | stopped hstop' houtcome' hafter' =>
          rw [hsame, hstop] at hstop'
          cases hstop'
          have hnone : (none : Option Int) ≠ some start := nofun
          exact .attempts hsteady hnone (.of_eq (houtcome'.trans houtcome.symm) hafter hafter')
      | merged hcandles' hrun' =>
          rw [hsame, hstop] at hcandles'
          cases hcandles'
  | merged hcandles hrun =>
      cases h' with
      | stopped hstop' houtcome' hafter' =>
          rw [hsame, hcandles] at hstop'
          cases hstop'
      | merged hcandles' hrun' =>
          rw [hsame, hcandles] at hcandles'
          cases hcandles'
          have hnext : job.plan.after? start ≠ some start :=
            fun hagain => Int.lt_irrefl _ (Plan.lt_of_after? hagain)
          exact .attempts hsteady hnext (.report (hrest hrun hrun'))

/-- Two runs from the same point, one of which meets failures that pass, though no more for a call
than there are retries, are alike. -/
theorem Run.alike {fuel : Nat} {next : Option Int} {series : Series Candle}
    {before before' after after' : Transcript} {outcome outcome' : Except Stop (Series Candle)}
    (hrun : Run clean job fuel next series before outcome after)
    (hrun' : Run rough job fuel next series before' outcome' after')
    (hanswer : ∀ call, (answer call).isTransient = false)
    (hclean : ∀ call reply, clean.answers call reply → reply = answer call)
    (hrough : ∀ call reply, rough.answers call reply →
      reply = answer call ∨ reply.isTransient = true)
    (hcleanCalm : ∀ before, ¬ clean.wishes before true)
    (hroughCalm : ∀ before, ¬ rough.wishes before true)
    (hfew : ∀ call, after'.failuresOf call ≤ job.maxRetries.toNat) :
    Alike next before before' outcome outcome' after after' := by
  induction fuel generalizing next series before before' with
  | zero =>
      cases next with
      | none =>
          obtain ⟨rfl, hafter⟩ := hrun.of_none
          obtain ⟨houtcome, hafter'⟩ := hrun'.of_none
          exact .of_eq houtcome hafter hafter'
      | some start =>
          cases hrun
          cases hrun'
          exact .of_eq rfl rfl rfl
  | succ fuel ih =>
      cases next with
      | none =>
          obtain ⟨rfl, hafter⟩ := hrun.of_none
          obtain ⟨houtcome, hafter'⟩ := hrun'.of_none
          exact .of_eq houtcome hafter hafter'
      | some start =>
          cases hroom : series.isFull with
          | true =>
              obtain ⟨rfl, hafter⟩ := hrun.of_full hroom
              obtain ⟨houtcome, hafter'⟩ := hrun'.of_full hroom
              exact .of_eq houtcome hafter hafter'
          | false =>
              rcases job.announcement_cases (job.plan.chunkAt start) with
                hannounced | ⟨fault, hfault⟩
              · obtain ⟨steady, hchunk⟩ := hrun.exists_attempts hroom hcleanCalm hannounced
                obtain ⟨shaky, hchunk'⟩ := hrun'.exists_attempts hroom hroughCalm hannounced
                obtain ⟨hsteady, hfinal⟩ := steady.of_steady (hanswer _) (hclean _)
                have hfinal' := shaky.of_shaky (hrough _) hchunk'.prefix (hfew _)
                exact hchunk.alike hchunk' hsteady (hfinal'.trans hfinal.symm) ih
              · obtain ⟨rfl, hafter⟩ := hrun.of_unannounced hroom (hcleanCalm _) (hfault 1)
                obtain ⟨houtcome, hafter'⟩ := hrun'.of_unannounced hroom (hroughCalm _) (hfault 1)
                exact .of_eq houtcome hafter hafter'

end FetchJob

variable {σ σ' τ τ' : Type} [TimeNumber τ] [TimeNumber τ']

/-- Retries leave no trace but repeated calls. Let one exchange answer every call in a way of its
own, which is no failure that passes, and let another one do the same but for such failures, no more
of them for a call than there are retries. Then two fetches that nobody cancels come to the same end
and make the same reports, and without repetitions the calls of the second are those of the first.
-/
theorem tracedFetch_of_failures (answer : PageCall → PageAnswer)
    (hanswer : ∀ call, (answer call).isTransient = false)
    (clean : Venue τ (StateM σ)) (hclean : ∀ call world, (clean.call call world).1 = answer call)
    (hcleanCalm : ∀ world, (clean.cancelRequested world).1 = false)
    (rough : Venue τ' (StateM σ'))
    (hrough : ∀ call world, (rough.call call world).1 = answer call ∨
      (rough.call call world).1.isTransient = true)
    (hroughCalm : ∀ world, (rough.cancelRequested world).1 = false)
    (maxRetries : Int) (request : Request) (range : DateRange) (maxRecords : Int)
    (spacing : Spacing τ) (spacing' : Spacing τ') (world : σ) (world' : σ')
    (hfew : ∀ call, (tracedFetch rough.recorded maxRetries request range maxRecords spacing'
      world').2.failuresOf call ≤ maxRetries.toNat) :
    let undisturbed := tracedFetch clean.recorded maxRetries request range maxRecords spacing world
    let disturbed := tracedFetch rough.recorded maxRetries request range maxRecords spacing' world'
    disturbed.1 = undisturbed.1 ∧ disturbed.2.reports = undisturbed.2.reports ∧
      disturbed.2.calls.destutter (· ≠ ·) = undisturbed.2.calls := by
  intro undisturbed disturbed
  rcases begins_or_unbegun request range maxRecords with
    ⟨plan, series, hplan, hseries, hopens⟩ | ⟨fault, hunbegun⟩
  · obtain ⟨outcome, hrun, hresult⟩ := clean.recorded_records.tracedFetch
      hplan hseries hopens maxRetries spacing world
    obtain ⟨outcome', hrun', hresult'⟩ := rough.recorded_records.tracedFetch
      hplan hseries hopens maxRetries spacing' world'
    have halike : Alike plan.first? [] [] outcome outcome' undisturbed.2 disturbed.2 := by
      apply hrun.alike hrun' hanswer
      case hclean =>
        rintro call _ ⟨world, rfl⟩
        exact hclean call world
      case hrough =>
        rintro call _ ⟨world, rfl⟩
        exact hrough call world
      case hcleanCalm => exact clean.not_wishes_conduct hcleanCalm
      case hroughCalm => exact rough.not_wishes_conduct hroughCalm
      case hfew => exact hfew
    obtain ⟨events, events', hafter, hafter', rfl, hreports, hcalls, -⟩ := halike
    refine ⟨?_, ?_, ?_⟩
    · exact hresult'.trans hresult.symm
    · rw [hafter, hafter']
      exact hreports
    · rw [hafter, hafter']
      exact hcalls
  · have hfirst : undisturbed = (.error (.broke fault), []) :=
      hunbegun.tracedFetch_eq clean.recorded_records maxRetries spacing world
    have hsecond : disturbed = (.error (.broke fault), []) :=
      hunbegun.tracedFetch_eq rough.recorded_records maxRetries spacing' world'
    rw [hfirst, hsecond]
    exact ⟨rfl, rfl, rfl⟩

theorem tracedFetch_of_failures_busyAtFirst :
    let request : Request := ⟨"BTCUSDT", .minutes1, .linear, 1, by decide⟩
    let range : DateRange := ⟨-1, 2, by decide⟩
    let undisturbed := tracedFetch Market.single.exchange.recorded 3 request range 5
      ⟨.zero, none⟩ ()
    let disturbed := tracedFetch Market.single.busyAtFirst.recorded 3 request range 5
      ⟨.zero, none⟩ 0
    disturbed.1 = undisturbed.1 ∧ disturbed.2.reports = undisturbed.2.reports ∧
      disturbed.2.calls.destutter (· ≠ ·) = undisturbed.2.calls := by
  apply tracedFetch_of_failures fun call => (Market.single.exchange.call call ()).1
  case hanswer => exact fun _ => rfl
  case hclean => exact fun _ _ => rfl
  case hcleanCalm => exact fun _ => rfl
  case hrough =>
    intro call count
    by_cases hfirst : count = 0
    · subst hfirst
      exact Or.inr rfl
    · refine Or.inl ?_
      change (ite (count = 0) _ _ : PageAnswer × Nat).1 = _
      rw [if_neg hfirst]
  case hroughCalm => exact fun _ => rfl
  case hfew =>
    intro call
    apply Nat.le_trans (Transcript.failuresOf_le call _)
    decide +kernel

end CandleHistory
