import CandleHistory.Proofs.Announcement

/-!
What a fetch keeps true. A property of the world that may depend on the spacing of requests is kept
by a whole fetch, however it ends, if it is kept by every operation of the venue apart from the
clock and by every spaced attempt. Clock readings and pauses occur in spaced attempts only. The same
goes for fetches one after another that share their venue and their spacing.
-/

namespace CandleHistory

variable {ρ τ α β : Type}

/-- From every state with one property, an action ends in a state with another one. -/
def Ensures (pre : ρ → Prop) (act : StateM ρ α) (post : α → ρ → Prop) : Prop :=
  ∀ state, pre state → post (act state).1 (act state).2

namespace Ensures

variable {pre : ρ → Prop} {mid : α → ρ → Prop} {post : β → ρ → Prop}

theorem pure {a : α} (h : ∀ state, pre state → mid a state) :
    Ensures pre (Pure.pure a : StateM ρ α) mid := h

theorem bind {act : StateM ρ α} {next : α → StateM ρ β} (hact : Ensures pre act mid)
    (hnext : ∀ a, Ensures (mid a) (next a) post) : Ensures pre (act >>= next) post :=
  fun state hpre => hnext _ _ (hact state hpre)

theorem weaken {act : StateM ρ α} {pre' : ρ → Prop} (h : Ensures pre act mid)
    (himp : ∀ state, pre' state → pre state) : Ensures pre' act mid :=
  fun state hpre => h state (himp state hpre)

end Ensures

/-- A venue whose operations, apart from the clock and the calls, keep a property. -/
structure Venue.Keeps (venue : Venue τ (StateM ρ)) (inv : Spacing τ → ρ → Prop) : Prop where
  log : ∀ record spacing, Ensures (inv spacing) (venue.log record) fun _ => inv spacing
  cancelRequested : ∀ spacing, Ensures (inv spacing) venue.cancelRequested fun _ => inv spacing
  report : ∀ held spacing, Ensures (inv spacing) (venue.report held) fun _ => inv spacing

/-- A spaced attempt for a chunk keeps a property. -/
def FetchJob.AttemptKeeps [TimeNumber τ] (venue : Venue τ (StateM ρ))
    (inv : Spacing τ → ρ → Prop) (job : FetchJob) (chunk : Chunk) : Prop :=
  ∀ left number spacing, Ensures (inv spacing)
    (spacing.around venue.toClock (job.attempt venue chunk left number)) fun reply => inv reply.2

namespace Venue.Keeps

variable {venue : Venue τ (StateM ρ)} {inv : Spacing τ → ρ → Prop} (h : venue.Keeps inv)
  {job : FetchJob}

include h

theorem cancelled (spacing : Spacing τ) :
    Ensures (inv spacing) (FetchJob.cancelled venue) fun _ => inv spacing := by
  unfold FetchJob.cancelled
  refine (h.cancelRequested spacing).bind fun requested => ?_
  split
  · exact (h.log _ spacing).bind fun _ => .pure fun _ hinv => hinv
  · exact .pure fun _ hinv => hinv

theorem cancelledBefore (number : Nat) (spacing : Spacing τ) :
    Ensures (inv spacing) (FetchJob.cancelledBefore venue number) fun _ => inv spacing := by
  unfold FetchJob.cancelledBefore
  split
  · exact h.cancelled spacing
  · exact .pure fun _ hinv => hinv

theorem logNoData (span : Except Fault String) (spacing : Spacing τ) :
    Ensures (inv spacing) (FetchJob.logNoData venue span) fun _ => inv spacing := by
  cases span with
  | error fault => exact .pure fun _ hinv => hinv
  | ok span => exact h.log _ spacing

theorem logSkipped (message? : Option String) (spacing : Spacing τ) :
    Ensures (inv spacing) (FetchJob.logSkipped venue message?) fun _ => inv spacing := by
  cases message? with
  | none => exact .pure fun _ hinv => hinv
  | some message => exact h.log _ spacing

theorem reportHeld (held : Nat) (spacing : Spacing τ) :
    Ensures (inv spacing) (FetchJob.reportHeld venue held) fun _ => inv spacing := by
  unfold FetchJob.reportHeld
  refine (h.report held spacing).bind fun reply => ?_
  cases reply with
  | none => exact .pure fun _ hinv => hinv
  | some reason => exact h.log _ spacing

theorem absorb (chunk : Chunk) (candles : List Candle) (series : Series Candle)
    (spacing : Spacing τ) :
    Ensures (inv spacing) (FetchJob.absorb venue chunk candles series) fun _ => inv spacing := by
  unfold FetchJob.absorb
  split
  · refine (h.logNoData _ spacing).bind fun _ => (h.logSkipped _ spacing).bind fun _ => ?_
    refine (h.log _ spacing).bind fun _ => (h.reportHeld _ spacing).bind fun _ => ?_
    exact .pure fun _ hinv => hinv
  · refine (h.logSkipped _ spacing).bind fun _ => (h.log _ spacing).bind fun _ => ?_
    exact (h.reportHeld _ spacing).bind fun _ => .pure fun _ hinv => hinv

theorem announce (job : FetchJob) (spacing : Spacing τ) :
    Ensures (inv spacing) (FetchJob.announce venue job) fun _ => inv spacing := by
  have hmessage (level : Level) (source : Source) (message : Except Fault String) :
      Ensures (inv spacing) (FetchJob.logMessage venue level source message)
        fun _ => inv spacing := by
    cases message with
    | error fault => exact .pure fun _ hinv => hinv
    | ok message => exact (h.log _ spacing).bind fun _ => .pure fun _ hinv => hinv
  unfold FetchJob.announce
  refine (hmessage _ _ _).bind fun fault? => ?_
  cases fault? with
  | some fault => exact .pure fun _ hinv => hinv
  | none => exact hmessage _ _ _

theorem conclude (job : FetchJob) (outcome : Except Stop (Series Candle)) (spacing : Spacing τ) :
    Ensures (inv spacing) (FetchJob.conclude venue job outcome) fun _ => inv spacing := by
  rcases outcome with (⟨cause, held⟩ | held | fault) | series
  · exact (h.log _ spacing).bind fun _ => .pure fun _ hinv => hinv
  · exact .pure fun _ hinv => hinv
  · exact .pure fun _ hinv => hinv
  · exact (h.log _ spacing).bind fun _ => .pure fun _ hinv => hinv

variable [TimeNumber τ]

theorem fetchPage {chunk : Chunk} (hattempt : job.AttemptKeeps venue inv chunk)
    (held retries number : Nat) (spacing : Spacing τ) :
    Ensures (inv spacing) (FetchJob.fetchPage venue job chunk held retries number spacing)
      fun reply => inv reply.2 := by
  induction retries using Nat.strongRecOn generalizing number spacing with
  | ind retries ih =>
      unfold FetchJob.fetchPage
      refine (h.cancelledBefore number spacing).bind fun stopped => ?_
      split
      · exact .pure fun _ hinv => hinv
      · refine (hattempt retries number spacing).bind fun reply => ?_
        obtain ⟨answer, spacing⟩ := reply
        cases answer with
        | page rows => exact .pure fun _ hinv => hinv
        | broke fault => exact .pure fun _ hinv => hinv
        | failed reason =>
            dsimp only
            split
            · cases retries with
              | zero => exact .pure fun _ hinv => hinv
              | succ retries => exact ih retries (Nat.lt_succ_self _) (number + 1) spacing
            · exact .pure fun _ hinv => hinv

theorem fetchChunk {chunk : Chunk} (hattempt : job.AttemptKeeps venue inv chunk) (held : Nat)
    (spacing : Spacing τ) :
    Ensures (inv spacing) (FetchJob.fetchChunk venue job chunk held spacing)
      fun reply => inv reply.2 := by
  unfold FetchJob.fetchChunk
  exact (h.fetchPage hattempt held _ 1 spacing).bind fun _ => .pure fun _ hinv => hinv

/-- The loop over the chunks keeps a property if the attempts for every chunk of the range do. -/
theorem fetchFrom
    (hattempt : ∀ fuel start, job.plan.Within fuel (some start) →
      job.AttemptKeeps venue inv (job.plan.chunkAt start))
    {fuel : Nat} {next : Option Int} (hwithin : job.plan.Within fuel next) (series : Series Candle)
    (spacing : Spacing τ) :
    Ensures (inv spacing) (FetchJob.fetchFrom venue job fuel next series spacing)
      fun reply => inv reply.2 := by
  induction fuel generalizing next series spacing with
  | zero => cases next <;> exact .pure fun _ hinv => hinv
  | succ fuel ih =>
      cases next with
      | none => exact .pure fun _ hinv => hinv
      | some start =>
          unfold FetchJob.fetchFrom
          split
          · exact (h.log _ spacing).bind fun _ => .pure fun _ hinv => hinv
          · refine (h.cancelled spacing).bind fun stopped => ?_
            split
            · exact .pure fun _ hinv => hinv
            · have hchunk := hattempt (fuel + 1) start hwithin
              refine (h.fetchChunk hchunk _ spacing).bind fun reply => ?_
              obtain ⟨answer, spacing⟩ := reply
              cases answer with
              | error stop => exact .pure fun _ hinv => hinv
              | ok candles =>
                  refine (h.absorb _ candles series spacing).bind fun grown => ?_
                  exact ih hwithin.after grown spacing

theorem run
    (hattempt : ∀ fuel start, job.plan.Within fuel (some start) →
      job.AttemptKeeps venue inv (job.plan.chunkAt start))
    (series : Series Candle) (spacing : Spacing τ) :
    Ensures (inv spacing) (FetchJob.run venue job series spacing) fun reply => inv reply.2 := by
  unfold FetchJob.run
  refine (h.announce job spacing).bind fun fault? => ?_
  cases fault? with
  | some fault => exact .pure fun _ hinv => hinv
  | none =>
      refine (h.fetchFrom hattempt job.plan.within_first series spacing).bind fun reply => ?_
      obtain ⟨answer, spacing⟩ := reply
      exact (h.conclude job answer spacing).bind fun _ => .pure fun _ hinv => hinv

/-- A fetch keeps a property if the attempts for every chunk of its range do. -/
theorem fetch {request : Request} {range : DateRange} {maxRetries : Int}
    (hattempt : ∀ plan fuel start, plan.range = range → plan.Within fuel (some start) →
      FetchJob.AttemptKeeps venue inv ⟨request, plan, maxRetries⟩ (plan.chunkAt start))
    (maxRecords : Int) (spacing : Spacing τ) :
    Ensures (inv spacing)
      (CandleHistory.fetch venue maxRetries request range maxRecords spacing)
      fun reply => inv reply.2 := by
  unfold CandleHistory.fetch
  cases hplan : Plan.make range request.interval request.limit with
  | error reason => exact .pure fun _ hinv => hinv
  | ok plan =>
      have hrange : plan.range = range := by
        unfold Plan.make at hplan
        split at hplan
        · cases hplan
          rfl
        · cases hplan
      cases Series.make Candle maxRecords with
      | error reason => exact .pure fun _ hinv => hinv
      | ok series => exact h.run (fun fuel start => hattempt plan fuel start hrange) series spacing

end Venue.Keeps

/-- A fetch among others, with what goes on in the world before it. -/
structure Errand (m : Type → Type) where
  meanwhile : m Unit
  request : Request
  range : DateRange
  maxRecords : Int

/-- Makes one fetch after another at one venue, with one spacing. -/
def fetchAll [TimeNumber τ] {m : Type → Type} [Monad m] (venue : Venue τ m)
    (maxRetries : Int) :
    List (Errand m) → Spacing τ → m (List (Except Stop (List Candle)) × Spacing τ)
  | [], spacing => return ([], spacing)
  | errand :: errands, spacing => do
    errand.meanwhile
    let (outcome, spacing) ←
      fetch venue maxRetries errand.request errand.range errand.maxRecords spacing
    let (outcomes, spacing) ← fetchAll venue maxRetries errands spacing
    return (outcome :: outcomes, spacing)

/-- Fetches one after another keep a property if each of them does. -/
theorem Venue.Keeps.fetchAll [TimeNumber τ] {venue : Venue τ (StateM ρ)}
    {inv : Spacing τ → ρ → Prop} (h : venue.Keeps inv) {maxRetries : Int}
    {errands : List (Errand (StateM ρ))}
    (hmeanwhile : ∀ errand ∈ errands, ∀ spacing,
      Ensures (inv spacing) errand.meanwhile fun _ => inv spacing)
    (hattempt : ∀ errand ∈ errands, ∀ plan fuel start, plan.range = errand.range →
      plan.Within fuel (some start) →
      FetchJob.AttemptKeeps venue inv ⟨errand.request, plan, maxRetries⟩ (plan.chunkAt start))
    (spacing : Spacing τ) :
    Ensures (inv spacing) (CandleHistory.fetchAll venue maxRetries errands spacing)
      fun reply => inv reply.2 := by
  induction errands generalizing spacing with
  | nil => exact .pure fun _ hinv => hinv
  | cons errand errands ih =>
      obtain ⟨hfirst, hothers⟩ := List.forall_mem_cons.mp hmeanwhile
      obtain ⟨hthis, hrest⟩ := List.forall_mem_cons.mp hattempt
      refine (hfirst spacing).bind fun _ => ?_
      refine (h.fetch hthis errand.maxRecords spacing).bind fun reply => ?_
      refine (ih hothers hrest reply.2).bind fun replies => ?_
      exact .pure fun _ hinv => hinv

end CandleHistory
