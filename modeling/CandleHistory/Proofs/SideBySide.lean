import CandleHistory.Proofs.Invariance
import CandleHistory.Proofs.Recording
import Mathlib.Data.List.Forall2

/-!
Two fetches side by side. What the other side does in a run is a script: it answers by the number of
calls that were made, and someone wishes to cancel by the number of things that have happened. Two
venues that play the same script may differ in all else, such as the clock, how long a call takes,
how long a pause really lasts and what was fetched before. The fetches from them do the same in
lockstep. The two scripts may even differ in their pages, as long as those merge into a series in
the same way.
-/

namespace CandleHistory

variable {σ σ' τ τ' α α' β β' : Type}

/-- How the other side answers the calls of a run, and when someone wishes to cancel it. -/
structure Script where
  answer : Nat → PageCall → PageAnswer
  wishes : Nat → Bool

/-- The venue with a transcript, at which the script says what comes of a call and whether someone
wishes to cancel. All else is left to the venue, and so is what becomes of the world. -/
def Venue.playing (script : Script) (venue : Venue τ (StateM σ)) :
    Venue τ (StateM (σ × Transcript)) :=
  { venue.recorded with
    call := fun call state =>
      let answer := script.answer state.2.calls.length call
      (answer, (venue.call call state.1).2, state.2 ++ [.called call answer])
    cancelRequested := fun state =>
      (script.wishes state.2.length, (venue.cancelRequested state.1).2, state.2) }

def Script.conduct (script : Script) : Conduct where
  answers call answer := ∃ index, script.answer index call = answer
  wishes before wished := wished = script.wishes before.length

theorem Venue.playing_records (script : Script) (venue : Venue τ (StateM σ)) :
    (venue.playing script).Records script.conduct where
  now := venue.recorded_records.now
  sleep := venue.recorded_records.sleep
  log := venue.recorded_records.log
  call _ _ before := ⟨rfl, before.calls.length, rfl⟩
  cancelRequested _ _ := ⟨rfl, rfl⟩
  report := venue.recorded_records.report

/-- Answers that differ at most in their pages, and those are related. -/
inductive PageAnswer.Alike (pages : Value → Value → Prop) : PageAnswer → PageAnswer → Prop
  | page {page page'} : pages page page' → Alike pages (.page page) (.page page')
  | failed (reason) : Alike pages (.failed reason) (.failed reason)
  | broke (fault) : Alike pages (.broke fault) (.broke fault)

structure Script.Alike (pages : Value → Value → Prop) (script script' : Script) : Prop where
  answers : ∀ index call, (script.answer index call).Alike pages (script'.answer index call)
  wishes : ∀ moment, script.wishes moment = script'.wishes moment

/-- Events that differ at most in the page of an answer. -/
inductive Event.Alike (pages : Value → Value → Prop) : Event → Event → Prop
  | called {call answer answer'} : PageAnswer.Alike pages answer answer' →
      Alike pages (.called call answer) (.called call answer')
  | reported (held) : Alike pages (.reported held) (.reported held)

abbrev Transcript.Alike (pages : Value → Value → Prop) : Transcript → Transcript → Prop :=
  List.Forall₂ (Event.Alike pages)

/-- The same stop, or related values. -/
inductive Agreed (relation : α → α' → Prop) : Except Stop α → Except Stop α' → Prop
  | stopped (stop) : Agreed relation (.error stop) (.error stop)
  | done {a a'} : relation a a' → Agreed relation (.ok a) (.ok a')

/-- Candles that add the same to a series, wherever it ends. -/
def MergeAlike (candles candles' : List Candle) : Prop :=
  ∀ tail? : Option Int, mergePage tail? candles = mergePage tail? candles'

/-- Related pages are read into candles that merge alike, or are refused for the same reason. -/
def FetchJob.ReadsAlike (job : FetchJob) (pages : Value → Value → Prop) : Prop :=
  ∀ held page page', pages page page' →
    Agreed MergeAlike (job.readPage held page) (job.readPage held page')

section Alike

variable {pages : Value → Value → Prop}

theorem PageAnswer.Alike.eq {answer answer' : PageAnswer} (h : answer.Alike Eq answer') :
    answer = answer' := by
  cases h with
  | page hpage => rw [hpage]
  | failed reason => rfl
  | broke fault => rfl

theorem PageAnswer.Alike.of_eq (answer : PageAnswer) : answer.Alike Eq answer := by
  cases answer with
  | page page => exact .page rfl
  | failed reason => exact .failed reason
  | broke fault => exact .broke fault

namespace Transcript.Alike

variable {before before' : Transcript} (h : Transcript.Alike pages before before')

include h

theorem calls_eq : before.calls = before'.calls := by
  induction h with
  | nil => rfl
  | cons hevent _ ih =>
      cases hevent with
      | @called call => exact congrArg (List.cons call) ih
      | reported held => exact ih

theorem reports_eq : before.reports = before'.reports := by
  induction h with
  | nil => rfl
  | cons hevent _ ih =>
      cases hevent with
      | called hanswer => exact ih
      | reported held => exact congrArg (List.cons held) ih

theorem concat {event event' : Event} (hevent : event.Alike pages event') :
    Transcript.Alike pages (before ++ [event]) (before' ++ [event']) :=
  List.rel_append h (.cons hevent .nil)

end Transcript.Alike

theorem Transcript.Alike.eq {transcript transcript' : Transcript}
    (h : Transcript.Alike Eq transcript transcript') : transcript = transcript' := by
  induction h with
  | nil => rfl
  | cons hevent _ ih =>
      cases hevent with
      | called hanswer => rw [hanswer.eq, ih]
      | reported held => rw [ih]

theorem Series.add_eq {series : Series Candle} {candles candles' : List Candle}
    (h : MergeAlike candles candles') : series.add candles = series.add candles' := by
  unfold Series.add
  rw [h]

end Alike

/-- Whatever the states of the two worlds are, two actions that begin with transcripts that are
alike end with such ones, and hand on related values. -/
def Alongside (pages : Value → Value → Prop) (relation : α → α' → Prop)
    (act : StateM (σ × Transcript) α) (act' : StateM (σ' × Transcript) α') : Prop :=
  ∀ world world' before before', Transcript.Alike pages before before' →
    relation (act (world, before)).1 (act' (world', before')).1 ∧
      Transcript.Alike pages (act (world, before)).2.2 (act' (world', before')).2.2

section Alongside

variable {pages : Value → Value → Prop} {act : StateM (σ × Transcript) α}
  {act' : StateM (σ' × Transcript) α'}

theorem Alongside.pure {relation : α → α' → Prop} {a : α} {a' : α'} (h : relation a a') :
    Alongside pages relation (Pure.pure a : StateM (σ × Transcript) α)
      (Pure.pure a' : StateM (σ' × Transcript) α') :=
  fun _ _ _ _ halike => ⟨h, halike⟩

theorem Alongside.bind {first : α → α' → Prop} {second : β → β' → Prop}
    {next : α → StateM (σ × Transcript) β} {next' : α' → StateM (σ' × Transcript) β'}
    (hact : Alongside pages first act act')
    (hnext : ∀ a a', first a a' → Alongside pages second (next a) (next' a')) :
    Alongside pages second (act >>= next) (act' >>= next') := by
  intro world world' before before' halike
  obtain ⟨hvalues, hmiddle⟩ := hact world world' before before' halike
  exact hnext _ _ hvalues _ _ _ _ hmiddle

theorem Leads.alongside {relation : α → α' → Prop} {first : Transcript → α → Transcript → Prop}
    {second : Transcript → α' → Transcript → Prop} (h : Leads act first) (h' : Leads act' second)
    (himp : ∀ before before' a a' after after', Transcript.Alike pages before before' →
      first before a after → second before' a' after' →
      relation a a' ∧ Transcript.Alike pages after after') :
    Alongside pages relation act act' :=
  fun world world' before before' halike =>
    himp _ _ _ _ _ _ halike (h world before) (h' world' before')

/-- Quiet actions make no difference to what two others do after them, side by side. -/
theorem Alongside.before {relation : β → β' → Prop} {next : α → StateM (σ × Transcript) β}
    {next' : α' → StateM (σ' × Transcript) β'} (h : Quiet act) (h' : Quiet act')
    (hnext : ∀ a a', Alongside pages relation (next a) (next' a')) :
    Alongside pages relation (act >>= next) (act' >>= next') := by
  have hboth : Alongside pages (fun _ _ => True) act act' := by
    refine Leads.alongside h h' ?_
    rintro before before' a a' after after' halike rfl rfl
    exact ⟨trivial, halike⟩
  exact hboth.bind fun a a' _ => hnext a a'

variable {venue : Venue τ (StateM (σ × Transcript))} {venue' : Venue τ' (StateM (σ' × Transcript))}
  {conduct conduct' : Conduct} (h : venue.Records conduct) (h' : venue'.Records conduct')

include h h'

/-- Pauses may differ: they leave no trace in the transcripts. -/
theorem Alongside.around [TimeNumber τ] [TimeNumber τ'] {relation : α → α' → Prop}
    (hact : Alongside pages relation act act') (spacing : Spacing τ) (spacing' : Spacing τ') :
    Alongside pages (fun reply reply' => relation reply.1 reply'.1)
      (spacing.around venue.toClock act) (spacing'.around venue'.toClock act') := by
  unfold Spacing.around
  refine .before (h.wait spacing) (h'.wait spacing') fun spacing spacing' => ?_
  refine hact.bind fun a a' hvalues => ?_
  exact .before (h.mark spacing) (h'.mark spacing') fun _ _ => .pure hvalues

theorem Alongside.absorb (chunk : Chunk) {candles candles' : List Candle}
    (hcandles : MergeAlike candles candles') (series : Series Candle) :
    Alongside pages Eq (FetchJob.absorb venue chunk candles series)
      (FetchJob.absorb venue' chunk candles' series) := by
  refine Leads.alongside (h.absorb chunk candles series) (h'.absorb chunk candles' series) ?_
  rintro before before' grown grown' after after' halike ⟨rfl, rfl⟩ ⟨rfl, rfl⟩
  rw [Series.add_eq hcandles]
  exact ⟨rfl, halike.concat (.reported _)⟩

theorem Alongside.announce (job : FetchJob) :
    Alongside pages Eq (FetchJob.announce venue job) (FetchJob.announce venue' job) := by
  have hmessage (level : Level) (source : Source) (message : Except Fault String) :
      Alongside pages Eq (FetchJob.logMessage venue level source message)
        (FetchJob.logMessage venue' level source message) := by
    cases message with
    | error fault => exact .pure rfl
    | ok message => exact .before (h.log _) (h'.log _) fun _ _ => .pure rfl
  unfold FetchJob.announce
  refine (hmessage _ _ _).bind ?_
  rintro fault? - rfl
  cases fault? with
  | some fault => exact .pure rfl
  | none => exact hmessage _ _ _

theorem Alongside.conclude (job : FetchJob) (outcome : Except Stop (Series Candle)) :
    Alongside pages Eq (FetchJob.conclude venue job outcome)
      (FetchJob.conclude venue' job outcome) := by
  refine Leads.alongside (h.conclude job outcome) (h'.conclude job outcome) ?_
  rintro before before' result result' after after' halike ⟨rfl, rfl⟩ ⟨rfl, rfl⟩
  exact ⟨rfl, halike⟩

end Alongside

namespace Script.Alike

variable {pages : Value → Value → Prop} {script script' : Script}
  (h : script.Alike pages script') (venue : Venue τ (StateM σ)) (venue' : Venue τ' (StateM σ'))

include h

theorem call (call : PageCall) :
    Alongside pages (PageAnswer.Alike pages) ((venue.playing script).call call)
      ((venue'.playing script').call call) := by
  intro world world' before before' halike
  have hanswer : (script.answer before.calls.length call).Alike pages
      (script'.answer before'.calls.length call) := by
    rw [halike.calls_eq]
    exact h.answers _ call
  exact ⟨hanswer, halike.concat (.called hanswer)⟩

theorem cancelled :
    Alongside pages Eq (FetchJob.cancelled (venue.playing script))
      (FetchJob.cancelled (venue'.playing script')) := by
  refine Leads.alongside (venue.playing_records script).cancelled
    (venue'.playing_records script').cancelled ?_
  rintro before before' wished wished' after after' halike ⟨rfl, hwished⟩ ⟨rfl, hwished'⟩
  refine ⟨?_, halike⟩
  calc wished = script.wishes after.length := hwished
    _ = script'.wishes after'.length := by rw [halike.length_eq, h.wishes]
    _ = wished' := hwished'.symm

theorem cancelledBefore (number : Nat) :
    Alongside pages Eq (FetchJob.cancelledBefore (venue.playing script) number)
      (FetchJob.cancelledBefore (venue'.playing script') number) := by
  unfold FetchJob.cancelledBefore
  split
  · exact h.cancelled venue venue'
  · exact .pure rfl

theorem announceAndCall (job : FetchJob) (chunk : Chunk) (number : Nat) :
    Alongside pages (PageAnswer.Alike pages)
      (FetchJob.announceAndCall (venue.playing script) job chunk number)
      (FetchJob.announceAndCall (venue'.playing script') job chunk number) := by
  unfold FetchJob.announceAndCall
  cases job.announcement chunk number with
  | error fault => exact .pure (.broke fault)
  | ok message =>
      exact .before ((venue.playing_records script).log _) ((venue'.playing_records script').log _)
        fun _ _ => h.call venue venue' _

theorem attempt (job : FetchJob) (chunk : Chunk) (retries number : Nat) :
    Alongside pages (PageAnswer.Alike pages)
      (FetchJob.attempt (venue.playing script) job chunk retries number)
      (FetchJob.attempt (venue'.playing script') job chunk retries number) := by
  unfold FetchJob.attempt
  refine (h.announceAndCall venue venue' job chunk number).bind fun answer answer' hanswer => ?_
  exact .before ((venue.playing_records script).logFailure _)
    ((venue'.playing_records script').logFailure _) fun _ _ => .pure hanswer

variable [TimeNumber τ] [TimeNumber τ']

theorem fetchPage (job : FetchJob) (chunk : Chunk) (held retries number : Nat)
    (spacing : Spacing τ) (spacing' : Spacing τ') :
    Alongside pages (fun reply reply' => Agreed pages reply.1 reply'.1)
      (FetchJob.fetchPage (venue.playing script) job chunk held retries number spacing)
      (FetchJob.fetchPage (venue'.playing script') job chunk held retries number spacing') := by
  -- on the retries that are left; the two spacings drift apart from one attempt to the next
  induction retries using Nat.strongRecOn generalizing number spacing spacing' with
  | ind retries ih =>
      unfold FetchJob.fetchPage
      refine (h.cancelledBefore venue venue' number).bind ?_
      rintro stopped - rfl
      split
      · exact .pure (.stopped _)
      · have hattempt := (h.attempt venue venue' job chunk retries number).around
          (venue.playing_records script) (venue'.playing_records script') spacing spacing'
        refine hattempt.bind ?_
        rintro ⟨answer, spacing⟩ ⟨answer', spacing'⟩ hanswer
        cases hanswer with
        | page hpage => exact .pure (.done hpage)
        | broke fault => exact .pure (.stopped _)
        | failed reason =>
            dsimp only
            split
            · cases retries with
              | zero => exact .pure (.stopped _)
              | succ retries => exact ih retries (Nat.lt_succ_self _) (number + 1) spacing spacing'
            · exact .pure (.stopped _)

variable {job : FetchJob} (hreads : job.ReadsAlike pages)

include hreads

theorem fetchChunk (chunk : Chunk) (held : Nat) (spacing : Spacing τ) (spacing' : Spacing τ') :
    Alongside pages (fun reply reply' => Agreed MergeAlike reply.1 reply'.1)
      (FetchJob.fetchChunk (venue.playing script) job chunk held spacing)
      (FetchJob.fetchChunk (venue'.playing script') job chunk held spacing') := by
  unfold FetchJob.fetchChunk
  refine (h.fetchPage venue venue' job chunk held _ 1 spacing spacing').bind ?_
  rintro ⟨page, spacing⟩ ⟨page', spacing'⟩ hpages
  cases hpages with
  | stopped stop => exact .pure (.stopped stop)
  | done hpage => exact .pure (hreads held _ _ hpage)

theorem fetchFrom (fuel : Nat) (next : Option Int) (series : Series Candle) (spacing : Spacing τ)
    (spacing' : Spacing τ') :
    Alongside pages (fun reply reply' => reply.1 = reply'.1)
      (FetchJob.fetchFrom (venue.playing script) job fuel next series spacing)
      (FetchJob.fetchFrom (venue'.playing script') job fuel next series spacing') := by
  -- chunk by chunk, from one series that both sides hold
  induction fuel generalizing next series spacing spacing' with
  | zero => cases next <;> exact .pure rfl
  | succ fuel ih =>
      cases next with
      | none => exact .pure rfl
      | some start =>
          unfold FetchJob.fetchFrom
          split
          · exact .before ((venue.playing_records script).log _)
              ((venue'.playing_records script').log _) fun _ _ => .pure rfl
          · refine (h.cancelled venue venue').bind ?_
            rintro stopped - rfl
            split
            · exact .pure rfl
            · refine (h.fetchChunk venue venue' hreads _ _ spacing spacing').bind ?_
              rintro ⟨answer, spacing⟩ ⟨answer', spacing'⟩ hanswer
              cases hanswer with
              | stopped stop => exact .pure rfl
              | done hcandles =>
                  refine (Alongside.absorb (venue.playing_records script)
                    (venue'.playing_records script') _ hcandles series).bind ?_
                  rintro grown - rfl
                  exact ih (job.plan.after? start) grown spacing spacing'

theorem run (series : Series Candle) (spacing : Spacing τ) (spacing' : Spacing τ') :
    Alongside pages (fun reply reply' => reply.1 = reply'.1)
      (FetchJob.run (venue.playing script) job series spacing)
      (FetchJob.run (venue'.playing script') job series spacing') := by
  unfold FetchJob.run
  refine (Alongside.announce (venue.playing_records script) (venue'.playing_records script')
    job).bind ?_
  rintro fault? - rfl
  cases fault? with
  | some fault => exact .pure rfl
  | none =>
      refine (h.fetchFrom venue venue' hreads _ _ series spacing spacing').bind ?_
      rintro ⟨answer, spacing⟩ ⟨answer', spacing'⟩ rfl
      refine (Alongside.conclude (venue.playing_records script) (venue'.playing_records script')
        job answer).bind ?_
      rintro result - rfl
      exact .pure rfl

omit hreads in
/-- Fetches at which scripts are played that are alike come to the same, with transcripts that are
alike. -/
theorem tracedFetch {maxRetries : Int} {request : Request}
    (hreads : ∀ plan, FetchJob.ReadsAlike ⟨request, plan, maxRetries⟩ pages) (range : DateRange)
    (maxRecords : Int) (spacing : Spacing τ) (spacing' : Spacing τ') (world : σ) (world' : σ') :
    let ran := CandleHistory.tracedFetch (venue.playing script) maxRetries request range maxRecords
      spacing world
    let ran' := CandleHistory.tracedFetch (venue'.playing script') maxRetries request range
      maxRecords spacing' world'
    ran.1 = ran'.1 ∧ Transcript.Alike pages ran.2 ran'.2 := by
  have hfetch : Alongside pages (fun reply reply' => reply.1 = reply'.1)
      (fetch (venue.playing script) maxRetries request range maxRecords spacing)
      (fetch (venue'.playing script') maxRetries request range maxRecords spacing') := by
    unfold fetch
    cases Plan.make range request.interval request.limit with
    | error reason => exact .pure rfl
    | ok plan =>
        dsimp only
        cases Series.make Candle maxRecords with
        | error reason => exact .pure rfl
        | ok series => exact h.run venue venue' (hreads plan) series spacing spacing'
  exact hfetch world world' [] [] .nil

end Script.Alike

theorem Script.alike_self (script : Script) : script.Alike Eq script where
  answers _ _ := .of_eq _
  wishes _ := rfl

theorem FetchJob.readsAlike_eq (job : FetchJob) : job.ReadsAlike Eq := by
  rintro held page - rfl
  cases job.readPage held page with
  | error stop => exact .stopped stop
  | ok candles => exact .done fun _ => rfl

/-- What a fetch comes to, the calls and their answers and the reports depend on the script alone:
neither the clock, the spacing, the pauses and the delays nor the fetches before it, however they
ended, make a difference. -/
theorem tracedFetch_eq_whatever_went_before [TimeNumber τ] [TimeNumber τ']
    (venue : Venue τ (StateM σ)) (venue' : Venue τ' (StateM σ')) (script : Script)
    (maxRetries : Int) (request : Request) (range : DateRange) (maxRecords : Int)
    (history : List (Errand (StateM σ))) (history' : List (Errand (StateM σ')))
    (spacing : Spacing τ) (spacing' : Spacing τ') (world : σ) (world' : σ') :
    let past := fetchAll venue maxRetries history spacing world
    let past' := fetchAll venue' maxRetries history' spacing' world'
    tracedFetch (venue.playing script) maxRetries request range maxRecords past.1.2 past.2 =
      tracedFetch (venue'.playing script) maxRetries request range maxRecords past'.1.2
        past'.2 := by
  intro past past'
  obtain ⟨hresult, htranscript⟩ := script.alike_self.tracedFetch venue venue'
    (fun plan => FetchJob.readsAlike_eq ⟨request, plan, maxRetries⟩) range maxRecords past.1.2
    past'.1.2 past.2 past'.2
  exact Prod.ext hresult htranscript.eq

end CandleHistory
