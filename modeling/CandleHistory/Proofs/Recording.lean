import CandleHistory.Proofs.Announcement
import CandleHistory.Proofs.Transcript

/-!
Venues that keep a transcript. A fetch from such a venue is one of the runs that the relations on
transcripts describe, whatever the state of the world behind the venue is. A venue of any kind can
be made to keep a transcript, and that changes nothing else.
-/

namespace CandleHistory

variable {σ τ : Type}

/-- Whatever the state of the world is, an action leads from one transcript to another, and hands
on a value, as the relation says. -/
def Leads {α : Type} (act : StateM (σ × Transcript) α)
    (relation : Transcript → α → Transcript → Prop) : Prop :=
  ∀ world before, relation before (act (world, before)).1 (act (world, before)).2.2

/-- An action that leaves the transcript alone. -/
def Quiet {α : Type} (act : StateM (σ × Transcript) α) : Prop :=
  Leads act fun before _ after => after = before

theorem Leads.mono {α : Type} {act : StateM (σ × Transcript) α}
    {first second : Transcript → α → Transcript → Prop} (h : Leads act first)
    (himp : ∀ before a after, first before a after → second before a after) :
    Leads act second :=
  fun world before => himp _ _ _ (h world before)

theorem Leads.bind {α β : Type} {act : StateM (σ × Transcript) α}
    {next : α → StateM (σ × Transcript) β} {first : Transcript → α → Transcript → Prop}
    {second : Transcript → β → Transcript → Prop} (hact : Leads act first)
    (hnext : ∀ a, Leads (next a) fun between b after =>
      ∀ before, first before a between → second before b after) :
    Leads (act >>= next) second :=
  fun world before => hnext _ _ _ before (hact world before)

theorem Quiet.pure {α : Type} (a : α) : Quiet (Pure.pure a : StateM (σ × Transcript) α) :=
  fun _ _ => rfl

theorem Quiet.bind {α β : Type} {act : StateM (σ × Transcript) α}
    {next : α → StateM (σ × Transcript) β} (hact : Quiet act) (hnext : ∀ a, Quiet (next a)) :
    Quiet (act >>= next) :=
  fun world before => (hnext _ _ _).trans (hact world before)

/-- After a quiet action, what the next one does is done from the same transcript. -/
theorem Quiet.before {α β : Type} {act : StateM (σ × Transcript) α}
    {next : α → StateM (σ × Transcript) β} {relation : Transcript → β → Transcript → Prop}
    (hact : Quiet act) (hnext : ∀ a, Leads (next a) relation) :
    Leads (act >>= next) relation := by
  refine Leads.bind hact fun a => (hnext a).mono ?_
  intro between b after hrel before hsame
  exact hsame ▸ hrel

/-- A venue that notes every call and every report in the transcript and nothing else, and that
behaves in a given way. -/
structure Venue.Records (venue : Venue τ (StateM (σ × Transcript))) (conduct : Conduct) : Prop
    where
  now : Quiet venue.now
  sleep : ∀ delay, Quiet (venue.sleep delay)
  log : ∀ record, Quiet (venue.log record)
  call : ∀ call, Leads (venue.call call) fun before answer after =>
    after = before ++ [.called call answer] ∧ conduct.answers call answer
  cancelRequested : Leads venue.cancelRequested fun before wished after =>
    after = before ∧ conduct.wishes before wished
  report : ∀ held, Leads (venue.report held) fun before _ after =>
    after = before ++ [.reported held]

namespace Venue.Records

variable {venue : Venue τ (StateM (σ × Transcript))} {conduct : Conduct}
  (h : venue.Records conduct)

include h

theorem mark (spacing : Spacing τ) : Quiet (spacing.mark venue.toClock) :=
  h.now.bind fun _ => Quiet.pure _

theorem wait [TimeNumber τ] (spacing : Spacing τ) : Quiet (spacing.wait venue.toClock) := by
  unfold Spacing.wait Spacing.pause
  refine Quiet.bind ?_ fun _ => h.mark spacing
  split
  · refine h.now.bind fun now => ?_
    split
    · exact (h.log _).bind fun _ => h.sleep _
    · exact Quiet.pure _
  · exact Quiet.pure _

/-- The spacing around an action leaves no trace in the transcript. -/
theorem around [TimeNumber τ] {α : Type} (spacing : Spacing τ)
    {body : StateM (σ × Transcript) α} {relation : Transcript → α → Transcript → Prop}
    (hbody : Leads body relation) :
    Leads (spacing.around venue.toClock body) fun before result after =>
      relation before result.1 after := by
  unfold Spacing.around
  refine (h.wait spacing).before fun spacing => Leads.bind hbody fun a => ?_
  refine (h.mark spacing).before fun spacing => ?_
  exact fun _ _ _ hrel => hrel

theorem cancelled : Leads (FetchJob.cancelled venue) fun before wished after =>
    after = before ∧ conduct.wishes before wished := by
  unfold FetchJob.cancelled
  refine Leads.bind h.cancelRequested fun requested => ?_
  split
  · exact (h.log _).before fun _ => fun _ _ _ hrel => ⟨hrel.1, hrel.2⟩
  · exact fun _ _ _ hrel => hrel

theorem cancelledBefore (number : Nat) :
    Leads (FetchJob.cancelledBefore venue number) fun before wished after =>
      after = before ∧ (1 < number → conduct.wishes before wished) ∧
        (wished = true → 1 < number) := by
  unfold FetchJob.cancelledBefore
  split
  case isTrue hnumber =>
    exact h.cancelled.mono fun before wished after hrel =>
      ⟨hrel.1, fun _ => hrel.2, fun _ => hnumber⟩
  case isFalse hnumber =>
    exact fun _ _ => ⟨rfl, fun hlt => absurd hlt hnumber, fun hfalse => nomatch hfalse⟩

/-- An attempt either cannot be announced, and then nothing is called, or it is called. -/
theorem announceAndCall (job : FetchJob) (chunk : Chunk) (number : Nat) :
    Leads (FetchJob.announceAndCall venue job chunk number) fun before answer after =>
      (∃ fault, job.announcement chunk number = .error fault ∧ answer = .broke fault ∧
        after = before) ∨
      ((∃ message, job.announcement chunk number = .ok message) ∧
        after = before ++ [.called (job.pageCall chunk) answer] ∧
        conduct.answers (job.pageCall chunk) answer) := by
  unfold FetchJob.announceAndCall
  cases job.announcement chunk number with
  | error fault => exact fun _ _ => Or.inl ⟨fault, rfl, rfl, rfl⟩
  | ok message =>
      refine Quiet.before (h.log _) fun _ => (h.call _).mono ?_
      exact fun before answer after hrel => Or.inr ⟨⟨message, rfl⟩, hrel⟩

theorem logFailure (record? : Option LogRecord) :
    Quiet (FetchJob.logFailure venue record?) := by
  cases record? with
  | none => exact Quiet.pure _
  | some record => exact h.log _

/-- An attempt leaves what its call leaves. -/
theorem attempt (job : FetchJob) (chunk : Chunk) (retries number : Nat) :
    Leads (FetchJob.attempt venue job chunk retries number) fun before answer after =>
      (∃ fault, job.announcement chunk number = .error fault ∧ answer = .broke fault ∧
        after = before) ∨
      ((∃ message, job.announcement chunk number = .ok message) ∧
        after = before ++ [.called (job.pageCall chunk) answer] ∧
        conduct.answers (job.pageCall chunk) answer) := by
  unfold FetchJob.attempt
  refine Leads.bind (h.announceAndCall job chunk number) fun answer => ?_
  refine Quiet.before (h.logFailure _) fun _ => ?_
  exact fun _ _ _ hrel => hrel

theorem fetchPage [TimeNumber τ] (job : FetchJob) (chunk : Chunk) (held retries number : Nat)
    (spacing : Spacing τ) :
    Leads (FetchJob.fetchPage venue job chunk held retries number spacing)
      fun before result after =>
        job.PageRun conduct chunk held retries number before result.1 after := by
  induction retries using Nat.strongRecOn generalizing number spacing with
  | ind retries ih =>
      unfold FetchJob.fetchPage
      refine Leads.bind (h.cancelledBefore number) fun stopped => ?_
      cases stopped with
      | true =>
          rintro world between before ⟨rfl, hwish, hnumber⟩
          exact .cancelled (hnumber rfl) (hwish (hnumber rfl))
      | false =>
          refine Leads.bind (h.around spacing (h.attempt job chunk retries number)) fun reply => ?_
          obtain ⟨answer, spacing⟩ := reply
          cases answer with
          | page rows =>
              rintro world between start hattempt before ⟨rfl, hwish, -⟩
              obtain ⟨fault, -, hbroke, -⟩ | ⟨hannounced, rfl, hanswer⟩ := hattempt
              · cases hbroke
              · exact .answered ⟨hwish, hannounced, hanswer⟩
          | broke fault =>
              rintro world between start hattempt before ⟨rfl, hwish, -⟩
              obtain ⟨fault', hfault, hbroke, rfl⟩ | ⟨hannounced, rfl, hanswer⟩ := hattempt
              · cases hbroke
                exact .unannounced hwish hfault
              · exact .broke ⟨hwish, hannounced, hanswer⟩
          | failed reason =>
              dsimp only
              split
              case isTrue htransient =>
                cases retries with
                | zero =>
                    rintro world between start hattempt before ⟨rfl, hwish, -⟩
                    obtain ⟨fault, -, hbroke, -⟩ | ⟨hannounced, rfl, hanswer⟩ := hattempt
                    · cases hbroke
                    · exact .exhausted ⟨hwish, hannounced, hanswer⟩ htransient
                | succ retries =>
                    refine (ih retries (Nat.lt_succ_self _) (number + 1) spacing).mono ?_
                    rintro between result after hrun start hattempt before ⟨rfl, hwish, -⟩
                    obtain ⟨fault, -, hbroke, -⟩ | ⟨hannounced, rfl, hanswer⟩ := hattempt
                    · cases hbroke
                    · exact .retried ⟨hwish, hannounced, hanswer⟩ htransient hrun
              case isFalse htransient =>
                rintro world between start hattempt before ⟨rfl, hwish, -⟩
                obtain ⟨fault, -, hbroke, -⟩ | ⟨hannounced, rfl, hanswer⟩ := hattempt
                · cases hbroke
                · exact .refused ⟨hwish, hannounced, hanswer⟩ (by simpa using htransient)

theorem fetchChunk [TimeNumber τ] (job : FetchJob) (chunk : Chunk) (held : Nat)
    (spacing : Spacing τ) :
    Leads (FetchJob.fetchChunk venue job chunk held spacing) fun before result after =>
      ∃ page, job.PageRun conduct chunk held job.maxRetries.toNat 1 before page after ∧
        result.1 = page.bind (job.readPage held) := by
  unfold FetchJob.fetchChunk
  refine Leads.bind (h.fetchPage job chunk held _ 1 spacing) fun reply => ?_
  exact fun _ _ _ hpage => ⟨_, hpage, rfl⟩

theorem absorb (chunk : Chunk) (candles : List Candle) (series : Series Candle) :
    Leads (FetchJob.absorb venue chunk candles series) fun before grown after =>
      grown = series.add candles ∧ after = before ++ [.reported (series.add candles).size] := by
  have hreport (held : Nat) : Leads (FetchJob.reportHeld venue held) fun before _ after =>
      after = before ++ [.reported held] := by
    unfold FetchJob.reportHeld
    refine Leads.bind (h.report held) fun reply => ?_
    cases reply with
    | none => exact fun _ _ _ hrel => hrel
    | some reason => exact (h.log _).mono fun _ _ _ hsame _ hrel => hsame.trans hrel
  have hmerge : Leads
      (do
        FetchJob.logSkipped venue (series.skippedMessage? candles)
        let grown := series.add candles
        FetchJob.log venue .debug
          (s!"[FETCH] Retrieved {candles.length} records in this chunk, " ++
            s!"kept {series.countKept candles}. Total so far: {grown.size}")
        FetchJob.reportHeld venue grown.size
        return grown)
      fun before grown after =>
        grown = series.add candles ∧ after = before ++ [.reported (series.add candles).size] := by
    refine Quiet.before ?_ fun _ => Quiet.before (h.log _) fun _ => ?_
    · cases series.skippedMessage? candles with
      | none => exact Quiet.pure _
      | some message => exact h.log _
    · exact (hreport _).bind fun _ => fun _ _ _ hrel => ⟨rfl, hrel⟩
  unfold FetchJob.absorb
  split
  · refine Quiet.before ?_ fun _ => hmerge
    cases chunk.spanText with
    | error fault => exact Quiet.pure _
    | ok span => exact h.log _
  · exact hmerge

theorem fetchFrom [TimeNumber τ] (job : FetchJob) (fuel : Nat) (next : Option Int)
    (series : Series Candle) (spacing : Spacing τ) :
    Leads (FetchJob.fetchFrom venue job fuel next series spacing) fun before result after =>
      job.Run conduct fuel next series before result.1 after := by
  induction fuel generalizing next series spacing with
  | zero =>
      cases next with
      | none => exact fun _ _ => .finished
      | some start => exact fun _ _ => .spent
  | succ fuel ih =>
      cases next with
      | none => exact fun _ _ => .finished
      | some start =>
          unfold FetchJob.fetchFrom
          split
          case isTrue hfull =>
            exact Quiet.before (h.log _) fun _ => fun _ _ => .full hfull
          case isFalse hfull =>
            replace hfull : series.isFull = false := by simpa using hfull
            refine Leads.bind h.cancelled fun stopped => ?_
            cases stopped with
            | true =>
                rintro world between before ⟨rfl, hwish⟩
                exact .cancelled hfull hwish
            | false =>
                refine Leads.bind (h.fetchChunk job _ _ spacing) fun reply => ?_
                obtain ⟨answer, spacing⟩ := reply
                cases answer with
                | error stop =>
                    rintro world between start hchunk before ⟨rfl, hwish⟩
                    obtain ⟨page, hpage, hread⟩ := hchunk
                    cases page with
                    | error reason =>
                        cases hread
                        exact .failed hfull hwish hpage
                    | ok rows => exact .unreadable hfull hwish hpage hread.symm
                | ok candles =>
                    refine Leads.bind (h.absorb _ candles series) fun grown => ?_
                    refine (ih (job.plan.after? start) grown spacing).mono ?_
                    rintro between result after hrun middle ⟨rfl, rfl⟩ start hchunk before
                      ⟨rfl, hwish⟩
                    obtain ⟨page, hpage, hread⟩ := hchunk
                    cases page with
                    | error reason => cases hread
                    | ok rows => exact .absorbed hfull hwish hpage hread.symm hrun

theorem conclude (job : FetchJob) (outcome : Except Stop (Series Candle)) :
    Leads (FetchJob.conclude venue job outcome) fun before result after =>
      after = before ∧ result = outcome.map Series.result := by
  rcases outcome with (⟨cause, held⟩ | held | fault) | series
  · exact Quiet.before (h.log _) fun _ => fun _ _ => ⟨rfl, rfl⟩
  · exact fun _ _ => ⟨rfl, rfl⟩
  · exact fun _ _ => ⟨rfl, rfl⟩
  · exact Quiet.before (h.log _) fun _ => fun _ _ => ⟨rfl, rfl⟩

/-- A fetch makes a run of its job, if its bounds make sense and it can be announced. -/
theorem fetch [TimeNumber τ] {request : Request} {range : DateRange} {maxRecords : Int}
    {plan : Plan} {series : Series Candle}
    (hplan : Plan.make range request.interval request.limit = .ok plan)
    (hseries : Series.make Candle maxRecords = .ok series) (hopens : plan.Announceable)
    (maxRetries : Int) (spacing : Spacing τ) :
    Leads (CandleHistory.fetch venue maxRetries request range maxRecords spacing)
      fun before result after => ∃ outcome,
        FetchJob.Run conduct ⟨request, plan, maxRetries⟩ plan.range.length plan.first? series
          before outcome after ∧
        result.1 = outcome.map Series.result := by
  let job : FetchJob := ⟨request, plan, maxRetries⟩
  have hjob : job.plan.Announceable := hopens
  obtain ⟨headline, opening, hrun⟩ := FetchJob.run_of_announceable hjob venue series spacing
  unfold CandleHistory.fetch
  rw [hplan, hseries]
  change Leads (job.run venue series spacing) _
  rw [hrun]
  refine Quiet.before (h.log _) fun _ => Quiet.before (h.log _) fun _ => ?_
  refine Leads.bind (h.fetchFrom _ _ _ series spacing) fun reply => ?_
  obtain ⟨answer, spacing⟩ := reply
  refine Leads.bind (h.conclude job answer) fun result => ?_
  rintro world between middle ⟨rfl, rfl⟩ before hrun
  exact ⟨answer, hrun, rfl⟩

end Venue.Records

/-- What a fetch from a venue that keeps a transcript comes to, and the transcript. -/
def tracedFetch [TimeNumber τ] (venue : Venue τ (StateM (σ × Transcript))) (maxRetries : Int)
    (request : Request) (range : DateRange) (maxRecords : Int) (spacing : Spacing τ) (world : σ) :
    Except Stop (List Candle) × Transcript :=
  let reply := fetch venue maxRetries request range maxRecords spacing (world, [])
  (reply.1.1, reply.2.2)

/-- Why a fetch ends before its first chunk: its cap makes no sense, or it cannot be announced. -/
inductive Unbegun (request : Request) (range : DateRange) (maxRecords : Int) : Fault → Prop
  | series {plan reason} (hplan : Plan.make range request.interval request.limit = .ok plan)
      (hseries : Series.make Candle maxRecords = .error reason) :
      Unbegun request range maxRecords (.bound reason)
  | announcement {plan series}
      (hplan : Plan.make range request.interval request.limit = .ok plan)
      (hseries : Series.make Candle maxRecords = .ok series) (hlong : ¬ plan.Announceable) :
      Unbegun request range maxRecords .tooManyDigits

/-- Either a fetch gets to its chunks, or it ends before them. -/
theorem begins_or_unbegun (request : Request) (range : DateRange) (maxRecords : Int) :
    (∃ plan series, Plan.make range request.interval request.limit = .ok plan ∧
      Series.make Candle maxRecords = .ok series ∧ plan.Announceable) ∨
    ∃ fault, Unbegun request range maxRecords fault := by
  obtain ⟨plan, hplan, -⟩ := Plan.make_isOk range request.interval request.one_le_limit
  cases hseries : Series.make Candle maxRecords with
  | error reason => exact Or.inr ⟨_, .series hplan hseries⟩
  | ok series =>
      by_cases hopens : plan.Announceable
      · exact Or.inl ⟨plan, series, hplan, rfl, hopens⟩
      · exact Or.inr ⟨_, .announcement hplan hseries hopens⟩

/-- A fetch that ends before its first chunk leaves no trace in the transcript. -/
theorem Unbegun.tracedFetch_eq [TimeNumber τ] {request : Request} {range : DateRange}
    {maxRecords : Int} {fault : Fault} (h : Unbegun request range maxRecords fault)
    {venue : Venue τ (StateM (σ × Transcript))} {conduct : Conduct} (hvenue : venue.Records conduct)
    (maxRetries : Int) (spacing : Spacing τ) (world : σ) :
    tracedFetch venue maxRetries request range maxRecords spacing world =
      (.error (.broke fault), []) := by
  cases h with
  | series hplan hseries =>
      unfold tracedFetch fetch
      rw [hplan, hseries]
      rfl
  | @announcement plan series hplan hseries hlong =>
      let job : FetchJob := ⟨request, plan, maxRetries⟩
      have hfetch : fetch venue maxRetries request range maxRecords spacing =
          job.run venue series spacing := by
        unfold fetch
        rw [hplan, hseries]
      unfold tracedFetch
      have hjob : ¬ job.plan.Announceable := hlong
      rcases FetchJob.run_of_not_announceable hjob venue series spacing with
        hrun | ⟨headline, hrun⟩
      · rw [hfetch, hrun]
        rfl
      · rw [hfetch, hrun]
        exact congrArg (Prod.mk _) (hvenue.log headline world [])

/-- A fetch that gets to its chunks makes a run of its job. -/
theorem Venue.Records.tracedFetch [TimeNumber τ] {venue : Venue τ (StateM (σ × Transcript))}
    {conduct : Conduct} (h : venue.Records conduct) {request : Request} {range : DateRange}
    {maxRecords : Int} {plan : Plan} {series : Series Candle}
    (hplan : Plan.make range request.interval request.limit = .ok plan)
    (hseries : Series.make Candle maxRecords = .ok series) (hopens : plan.Announceable)
    (maxRetries : Int) (spacing : Spacing τ) (world : σ) :
    ∃ outcome,
      FetchJob.Run conduct ⟨request, plan, maxRetries⟩ plan.range.length plan.first? series
        [] outcome
        (CandleHistory.tracedFetch venue maxRetries request range maxRecords spacing world).2 ∧
      (CandleHistory.tracedFetch venue maxRetries request range maxRecords spacing world).1 =
        outcome.map Series.result :=
  h.fetch hplan hseries hopens maxRetries spacing world []

/-- Does something, and notes in the transcript what came of it. -/
def Transcript.noting {α : Type} (events : α → Transcript) (act : StateM σ α) :
    StateM (σ × Transcript) α :=
  fun state => ((act state.1).1, (act state.1).2, state.2 ++ events (act state.1).1)

namespace Venue

/-- The venue with a transcript. -/
def recorded (venue : Venue τ (StateM σ)) : Venue τ (StateM (σ × Transcript)) where
  now := Transcript.noting (fun _ => []) venue.now
  sleep delay := Transcript.noting (fun _ => []) (venue.sleep delay)
  log record := Transcript.noting (fun _ => []) (venue.log record)
  call call := Transcript.noting (fun answer => [.called call answer]) (venue.call call)
  cancelRequested := Transcript.noting (fun _ => []) venue.cancelRequested
  report held := Transcript.noting (fun _ => [.reported held]) (venue.report held)

/-- The venue at which it depends on the transcript whether someone wishes to cancel. -/
def wishing (wish : Transcript → Bool) (venue : Venue τ (StateM (σ × Transcript))) :
    Venue τ (StateM (σ × Transcript)) :=
  { venue with cancelRequested := fun state => (wish state.2, state) }

/-- What may come up at a venue, in whatever state the world is. -/
def conduct (venue : Venue τ (StateM σ)) : Conduct where
  answers call answer := ∃ world, (venue.call call world).1 = answer
  wishes _ wished := ∃ world, (venue.cancelRequested world).1 = wished

theorem not_wishes_conduct (venue : Venue τ (StateM σ))
    (hcalm : ∀ world, (venue.cancelRequested world).1 = false) (before : Transcript) :
    ¬ venue.conduct.wishes before true := by
  rintro ⟨world, hwish⟩
  rw [hcalm world] at hwish
  cases hwish

theorem recorded_records (venue : Venue τ (StateM σ)) :
    venue.recorded.Records venue.conduct where
  now _ _ := List.append_nil _
  sleep _ _ _ := List.append_nil _
  log _ _ _ := List.append_nil _
  call _ world _ := ⟨rfl, world, rfl⟩
  cancelRequested world _ := ⟨List.append_nil _, world, rfl⟩
  report _ _ _ := rfl

theorem Records.wishing {venue : Venue τ (StateM (σ × Transcript))} {conduct : Conduct}
    (h : venue.Records conduct) (wish : Transcript → Bool) :
    (venue.wishing wish).Records
      { conduct with wishes := fun before wished => wished = wish before } where
  now := h.now
  sleep := h.sleep
  log := h.log
  call := h.call
  cancelRequested _ _ := ⟨rfl, rfl⟩
  report := h.report

/-- What is kept beside the world, such as a transcript, changes neither the values that are handed
on nor the world. -/
def recording (σ ρ : Type) : Coupling (StateM σ) (StateM (σ × ρ)) where
  rel plain noted := ∀ state, (noted state).1 = (plain state.1).1 ∧
    (noted state).2.1 = (plain state.1).2
  pure _ _ := ⟨rfl, rfl⟩
  bind {_ _ x y f g} hxy hfg state := by
    have hfirst := hxy state
    have hsecond := hfg (y state).1 (y state).2
    rw [hfirst.1, hfirst.2] at hsecond
    refine ⟨?_, ?_⟩
    · calc (g (y state).1 (y state).2).1 = (g (x state.1).1 (y state).2).1 := by rw [hfirst.1]
        _ = (f (x state.1).1 (x state.1).2).1 := hsecond.1
    · calc (g (y state).1 (y state).2).2.1 = (g (x state.1).1 (y state).2).2.1 := by rw [hfirst.1]
        _ = (f (x state.1).1 (x state.1).2).2 := hsecond.2

theorem recorded_coupled (venue : Venue τ (StateM σ)) :
    venue.Coupled (recording σ Transcript) venue.recorded where
  now _ := ⟨rfl, rfl⟩
  sleep _ _ := ⟨rfl, rfl⟩
  log _ _ := ⟨rfl, rfl⟩
  call _ _ := ⟨rfl, rfl⟩
  cancelRequested _ := ⟨rfl, rfl⟩
  report _ _ := ⟨rfl, rfl⟩

/-- A fetch from any venue makes a run of its job, if it gets to its chunks. -/
theorem exists_run [TimeNumber τ] (venue : Venue τ (StateM σ)) {request : Request}
    {range : DateRange} {maxRecords : Int} {plan : Plan} {series : Series Candle}
    (hplan : Plan.make range request.interval request.limit = .ok plan)
    (hseries : Series.make Candle maxRecords = .ok series) (hopens : plan.Announceable)
    (maxRetries : Int) (spacing : Spacing τ) (world : σ) :
    ∃ outcome after,
      FetchJob.Run venue.conduct ⟨request, plan, maxRetries⟩ plan.range.length plan.first? series
        [] outcome after ∧
      (fetch venue maxRetries request range maxRecords spacing world).1.1 =
        outcome.map Series.result := by
  obtain ⟨outcome, hrun, hresult⟩ :=
    venue.recorded_records.fetch hplan hseries hopens maxRetries spacing world []
  have hsame := (recording σ Transcript).fetch venue.recorded_coupled maxRetries request range
    maxRecords spacing (world, [])
  refine ⟨outcome, _, hrun, ?_⟩
  rw [← hresult, hsame.1]

end Venue

end CandleHistory
