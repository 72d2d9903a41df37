import CandleHistory.Paging.Fetch

/-!
A fetch knows the world around it only through its venue. So two venues, perhaps in different
monads, whose answers are related bring about related fetches, whatever the relation is, as long
as it respects sequencing. This transports what is known about one kind of world to another, and
shows that what no operation of a venue touches is not touched by a fetch.
-/

namespace CandleHistory

/-- A relation between the computations of two monads that respects sequencing. Related
computations hand on the same values. -/
structure Coupling (m n : Type → Type) [Monad m] [Monad n] where
  rel : {α : Type} → m α → n α → Prop
  pure : ∀ {α : Type} (a : α), rel (Pure.pure a : m α) (Pure.pure a : n α)
  bind : ∀ {α β : Type} {x : m α} {y : n α} {f : α → m β} {g : α → n β},
    rel x y → (∀ a, rel (f a) (g a)) → rel (x >>= f) (y >>= g)

variable {τ : Type} {m n : Type → Type} [Monad m] [Monad n]

/-- Clocks whose operations are related. -/
structure Clock.Coupled (bond : Coupling m n) (left : Clock τ m) (right : Clock τ n) : Prop where
  now : bond.rel left.now right.now
  sleep : ∀ delay, bond.rel (left.sleep delay) (right.sleep delay)
  log : ∀ record, bond.rel (left.log record) (right.log record)

/-- Venues whose operations are related. -/
structure Venue.Coupled (bond : Coupling m n) (left : Venue τ m) (right : Venue τ n) : Prop
    extends Clock.Coupled bond left.toClock right.toClock where
  call : ∀ call, bond.rel (left.call call) (right.call call)
  cancelRequested : bond.rel left.cancelRequested right.cancelRequested
  report : ∀ held, bond.rel (left.report held) (right.report held)

/-- Venues whose operations are related, except that what a report comes to may differ: only what a
fetch makes of it is related. -/
structure Venue.Attuned (bond : Coupling m n) (left : Venue τ m) (right : Venue τ n) : Prop
    extends Clock.Coupled bond left.toClock right.toClock where
  call : ∀ call, bond.rel (left.call call) (right.call call)
  cancelRequested : bond.rel left.cancelRequested right.cancelRequested
  reportHeld : ∀ held,
    bond.rel (FetchJob.reportHeld left held) (FetchJob.reportHeld right held)

theorem Venue.Coupled.attuned {bond : Coupling m n} {left : Venue τ m} {right : Venue τ n}
    (h : left.Coupled bond right) : left.Attuned bond right where
  toCoupled := h.toCoupled
  call := h.call
  cancelRequested := h.cancelRequested
  reportHeld held := by
    unfold FetchJob.reportHeld
    refine bond.bind (h.report held) fun reply => ?_
    cases reply with
    | none => exact bond.pure _
    | some reason => exact h.log _

namespace Coupling

variable (bond : Coupling m n)

section Spacing

variable {left : Clock τ m} {right : Clock τ n} (h : left.Coupled bond right)

include h

theorem spacing_mark (spacing : Spacing τ) :
    bond.rel (spacing.mark left) (spacing.mark right) := by
  unfold Spacing.mark
  exact bond.bind h.now fun now => bond.pure _

theorem spacing_pause [TimeNumber τ] (spacing : Spacing τ) :
    bond.rel (spacing.pause left) (spacing.pause right) := by
  unfold Spacing.pause
  split
  · refine bond.bind h.now fun now => ?_
    split
    · exact bond.bind (h.log _) fun _ => h.sleep _
    · exact bond.pure _
  · exact bond.pure _

theorem spacing_wait [TimeNumber τ] (spacing : Spacing τ) :
    bond.rel (spacing.wait left) (spacing.wait right) := by
  unfold Spacing.wait
  exact bond.bind (bond.spacing_pause h spacing) fun _ => bond.spacing_mark h spacing

theorem spacing_around [TimeNumber τ] {α : Type} (spacing : Spacing τ) {body : m α}
    {other : n α} (hbody : bond.rel body other) :
    bond.rel (spacing.around left body) (spacing.around right other) := by
  unfold Spacing.around
  refine bond.bind (bond.spacing_wait h spacing) fun spacing => ?_
  refine bond.bind hbody fun result => ?_
  exact bond.bind (bond.spacing_mark h spacing) fun spacing => bond.pure _

end Spacing

section Fetch

variable {left : Venue τ m} {right : Venue τ n} (h : left.Attuned bond right)

include h

theorem cancelled : bond.rel (FetchJob.cancelled left) (FetchJob.cancelled right) := by
  unfold FetchJob.cancelled
  refine bond.bind h.cancelRequested fun requested => ?_
  split
  · exact bond.bind (h.log _) fun _ => bond.pure _
  · exact bond.pure _

theorem cancelledBefore (number : Nat) :
    bond.rel (FetchJob.cancelledBefore left number)
      (FetchJob.cancelledBefore right number) := by
  unfold FetchJob.cancelledBefore
  split
  · exact bond.cancelled h
  · exact bond.pure _

theorem announceAndCall (job : FetchJob) (chunk : Chunk) (number : Nat) :
    bond.rel (FetchJob.announceAndCall left job chunk number)
      (FetchJob.announceAndCall right job chunk number) := by
  unfold FetchJob.announceAndCall
  cases job.announcement chunk number with
  | error fault => exact bond.pure _
  | ok message => exact bond.bind (h.log _) fun _ => h.call _

theorem logFailure (record? : Option LogRecord) :
    bond.rel (FetchJob.logFailure left record?) (FetchJob.logFailure right record?) := by
  cases record? with
  | none => exact bond.pure _
  | some record => exact h.log _

theorem attempt (job : FetchJob) (chunk : Chunk) (retries number : Nat) :
    bond.rel (FetchJob.attempt left job chunk retries number)
      (FetchJob.attempt right job chunk retries number) := by
  unfold FetchJob.attempt
  refine bond.bind (bond.announceAndCall h job chunk number) fun answer => ?_
  exact bond.bind (bond.logFailure h _) fun _ => bond.pure _

theorem logNoData (span : Except Fault String) :
    bond.rel (FetchJob.logNoData left span) (FetchJob.logNoData right span) := by
  cases span with
  | error fault => exact bond.pure _
  | ok span => exact h.log _

theorem logSkipped (message? : Option String) :
    bond.rel (FetchJob.logSkipped left message?) (FetchJob.logSkipped right message?) := by
  cases message? with
  | none => exact bond.pure _
  | some message => exact h.log _

theorem absorb (chunk : Chunk) (candles : List Candle) (series : Series Candle) :
    bond.rel (FetchJob.absorb left chunk candles series)
      (FetchJob.absorb right chunk candles series) := by
  unfold FetchJob.absorb
  split
  · refine bond.bind (bond.logNoData h _) fun _ => ?_
    refine bond.bind (bond.logSkipped h _) fun _ => ?_
    refine bond.bind (h.log _) fun _ => ?_
    exact bond.bind (h.reportHeld _) fun _ => bond.pure _
  · refine bond.bind (bond.logSkipped h _) fun _ => ?_
    refine bond.bind (h.log _) fun _ => ?_
    exact bond.bind (h.reportHeld _) fun _ => bond.pure _

theorem logMessage (level : Level) (source : Source) (message : Except Fault String) :
    bond.rel (FetchJob.logMessage left level source message)
      (FetchJob.logMessage right level source message) := by
  cases message with
  | error fault => exact bond.pure _
  | ok message => exact bond.bind (h.log _) fun _ => bond.pure _

theorem announce (job : FetchJob) :
    bond.rel (FetchJob.announce left job) (FetchJob.announce right job) := by
  unfold FetchJob.announce
  refine bond.bind (bond.logMessage h _ _ _) fun fault? => ?_
  cases fault? with
  | some fault => exact bond.pure _
  | none => exact bond.logMessage h _ _ _

theorem conclude (job : FetchJob) (outcome : Except Stop (Series Candle)) :
    bond.rel (FetchJob.conclude left job outcome) (FetchJob.conclude right job outcome) := by
  rcases outcome with (cause | held | fault) | series
  · exact bond.bind (h.log _) fun _ => bond.pure _
  · exact bond.pure _
  · exact bond.pure _
  · exact bond.bind (h.log _) fun _ => bond.pure _

variable [TimeNumber τ]

theorem fetchPage (job : FetchJob) (chunk : Chunk) (held retries number : Nat)
    (spacing : Spacing τ) :
    bond.rel (FetchJob.fetchPage left job chunk held retries number spacing)
      (FetchJob.fetchPage right job chunk held retries number spacing) := by
  induction retries using Nat.strongRecOn generalizing number spacing with
  | ind retries ih =>
      unfold FetchJob.fetchPage
      refine bond.bind (bond.cancelledBefore h number) fun stopped => ?_
      split
      · exact bond.pure _
      · refine bond.bind (bond.spacing_around h.toCoupled spacing
          (bond.attempt h job chunk retries number)) fun reply => ?_
        obtain ⟨answer, spacing⟩ := reply
        cases answer with
        | page rows => exact bond.pure _
        | broke fault => exact bond.pure _
        | failed reason =>
            dsimp only
            split
            · cases retries with
              | zero => exact bond.pure _
              | succ retries => exact ih retries (Nat.lt_succ_self _) _ _
            · exact bond.pure _

theorem fetchChunk (job : FetchJob) (chunk : Chunk) (held : Nat) (spacing : Spacing τ) :
    bond.rel (FetchJob.fetchChunk left job chunk held spacing)
      (FetchJob.fetchChunk right job chunk held spacing) := by
  unfold FetchJob.fetchChunk
  exact bond.bind (bond.fetchPage h job chunk held _ 1 spacing) fun _ => bond.pure _

theorem fetchFrom (job : FetchJob) (fuel : Nat) (next : Option Int) (series : Series Candle)
    (spacing : Spacing τ) :
    bond.rel (FetchJob.fetchFrom left job fuel next series spacing)
      (FetchJob.fetchFrom right job fuel next series spacing) := by
  induction fuel generalizing next series spacing with
  | zero => cases next <;> exact bond.pure _
  | succ fuel ih =>
      cases next with
      | none => exact bond.pure _
      | some start =>
          unfold FetchJob.fetchFrom
          split
          · exact bond.bind (h.log _) fun _ => bond.pure _
          · refine bond.bind (bond.cancelled h) fun stopped => ?_
            split
            · exact bond.pure _
            · refine bond.bind (bond.fetchChunk h job _ _ spacing) fun reply => ?_
              obtain ⟨answer, spacing⟩ := reply
              cases answer with
              | error stop => exact bond.pure _
              | ok candles =>
                  exact bond.bind (bond.absorb h _ candles series) fun series => ih _ _ _

theorem run (job : FetchJob) (series : Series Candle) (spacing : Spacing τ) :
    bond.rel (FetchJob.run left job series spacing)
      (FetchJob.run right job series spacing) := by
  unfold FetchJob.run
  refine bond.bind (bond.announce h job) fun fault? => ?_
  cases fault? with
  | some fault => exact bond.pure _
  | none =>
      refine bond.bind (bond.fetchFrom h job _ _ series spacing) fun reply => ?_
      obtain ⟨answer, spacing⟩ := reply
      exact bond.bind (bond.conclude h job answer) fun result => bond.pure _

/-- Fetches from venues that differ at most in what their reports come to are related. -/
theorem fetch_of_attuned (maxRetries : Int) (request : Request) (range : DateRange)
    (maxRecords : Int) (spacing : Spacing τ) :
    bond.rel (CandleHistory.fetch left maxRetries request range maxRecords spacing)
      (CandleHistory.fetch right maxRetries request range maxRecords spacing) := by
  unfold CandleHistory.fetch
  cases Plan.make range request.interval request.limit with
  | error reason => exact bond.pure _
  | ok plan =>
      dsimp only
      cases Series.make Candle maxRecords with
      | error reason => exact bond.pure _
      | ok series => exact bond.run h _ series spacing

end Fetch

/-- Fetches from related venues are related. -/
theorem fetch [TimeNumber τ] {left : Venue τ m} {right : Venue τ n} (h : left.Coupled bond right)
    (maxRetries : Int) (request : Request) (range : DateRange) (maxRecords : Int)
    (spacing : Spacing τ) :
    bond.rel (CandleHistory.fetch left maxRetries request range maxRecords spacing)
      (CandleHistory.fetch right maxRetries request range maxRecords spacing) :=
  bond.fetch_of_attuned h.attuned maxRetries request range maxRecords spacing

end Coupling

end CandleHistory
