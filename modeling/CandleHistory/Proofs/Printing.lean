import CandleHistory.Program.Run
import CandleHistory.Proofs.Coupling
import CandleHistory.Proofs.WrittenOutput

/-!
What a run prints. A run up to its output neither prints nor looks at the clock on the wall, so two
worlds that are related apart from these bring about related runs. In a world whose standard output
is written down, such a run leaves it as it was.
-/

namespace CandleHistory

namespace Coupling

variable {m n : Type → Type} [Monad m] [Monad n]

/-- Two computations with a state are related if they are from every state on. -/
def withState (bond : Coupling m n) (ρ : Type) : Coupling (StateT ρ m) (StateT ρ n) where
  rel left right := ∀ state, bond.rel (left state) (right state)
  pure a state := bond.pure (a, state)
  bind hfirst hnext state := bond.bind (hfirst state) fun reply => hnext reply.1 reply.2

variable (bond : Coupling m n)

theorem lift {ρ α : Type} {left : m α} {right : n α} (h : bond.rel left right) :
    (bond.withState ρ).rel (liftM left) (liftM right) :=
  fun state => bond.bind h fun a => bond.pure (a, state)

theorem forM {α : Type} {left : α → m Unit} {right : α → n Unit}
    (h : ∀ a, bond.rel (left a) (right a)) (items : List α) :
    bond.rel (items.forM left) (items.forM right) := by
  induction items with
  | nil => exact bond.pure _
  | cons item items ih => exact bond.bind (h item) fun _ => ih

theorem map [LawfulMonad m] [LawfulMonad n] {α β : Type} {left : m α} {right : n α}
    (h : bond.rel left right) (f : α → β) : bond.rel (f <$> left) (f <$> right) := by
  rw [map_eq_pure_bind, map_eq_pure_bind]
  exact bond.bind h fun a => bond.pure (f a)

/-- Two computations that may fail are related if their results are. -/
def withFault (bond : Coupling m n) (ε : Type) : Coupling (ExceptT ε m) (ExceptT ε n) where
  rel left right := bond.rel left.run right.run
  pure a := bond.pure (Except.ok a)
  bind hfirst hnext := bond.bind hfirst fun
    | .ok a => hnext a
    | .error reason => bond.pure (Except.error reason)

theorem liftFault [LawfulMonad m] [LawfulMonad n] {ε α : Type} {left : m α} {right : n α}
    (h : bond.rel left right) : (bond.withFault ε).rel (liftM left) (liftM right) :=
  bond.map h Except.ok

theorem withFault_refl {ε α : Type} (result : Except ε α) :
    (bond.withFault ε).rel (liftM result) (liftM result) := bond.pure result

end Coupling

namespace Program

open CommandLine (Options)

section Memory

variable {σ : Type}

theorem bind_memory {α β : Type} (first : StateT Memory (StateM σ) α)
    (next : α → StateT Memory (StateM σ) β) (memory : Memory) (state : σ) :
    (first >>= next) memory state =
      next (first memory state).1.1 (first memory state).1.2 (first memory state).2 := rfl

theorem lift_memory {α : Type} (act : StateM σ α) (memory : Memory) (state : σ) :
    (liftM act : StateT Memory (StateM σ) α) memory state =
      (((act state).1, memory), (act state).2) := rfl

end Memory

variable {m n : Type → Type} [Monad m] [Monad n]

/-- Worlds whose operations are related, except that each may print in its own way and have a clock
of its own on the wall. -/
structure World.Coupled (bond : Coupling m n) (left : World m) (right : World n) : Prop where
  now : bond.rel left.now right.now
  sleep : ∀ seconds, bond.rel (left.sleep seconds) (right.sleep seconds)
  send : ∀ request, bond.rel (left.send request) (right.send request)
  complain : ∀ text, bond.rel (left.complain text) (right.complain text)
  logLine : ∀ line, bond.rel (left.logLine line) (right.logLine line)

section

variable {bond : Coupling m n} {left : World m} {right : World n} (h : left.Coupled bond right)
  (threshold : Nat)

include h

theorem log_coupled (record : LogRecord) :
    bond.rel (left.log threshold record) (right.log threshold record) := by
  unfold World.log
  split
  · exact h.logLine _
  · exact bond.pure _

theorem say_coupled (level : Level) (message : String) :
    bond.rel (left.say threshold level message) (right.say threshold level message) :=
  log_coupled h threshold _

theorem sendCall_coupled (call : PageCall) :
    (bond.withState Memory).rel (sendCall left threshold call)
      (sendCall right threshold call) := by
  have hrecords (records : List LogRecord) : (bond.withState Memory).rel
      (records.forM fun record => liftM (left.log threshold record))
      (records.forM fun record => liftM (right.log threshold record)) :=
    Coupling.forM _ (fun record => bond.lift (log_coupled h threshold record)) records
  unfold sendCall
  refine Coupling.bind _ (fun _ => bond.pure _) fun memory => ?_
  refine Coupling.bind _ (bond.lift (h.send _)) fun sent => ?_
  split
  · refine Coupling.bind _ (bond.lift (say_coupled h threshold _ _)) fun _ => ?_
    refine Coupling.bind _ (fun _ => bond.pure _) fun _ => ?_
    exact Coupling.bind _ (hrecords _) fun _ => Coupling.pure _ _
  · exact Coupling.bind _ (hrecords _) fun _ => Coupling.pure _ _

theorem callPage_coupled (call : PageCall) :
    (bond.withState Memory).rel (callPage left threshold call)
      (callPage right threshold call) :=
  Coupling.bind _ (fun _ => bond.pure _) fun _ => sendCall_coupled h threshold call

theorem reportCount_coupled (level : Level) (held : Nat) :
    bond.rel (reportCount left threshold level held) (reportCount right threshold level held) :=
  bond.bind (say_coupled h threshold _ _) fun _ => bond.pure _

theorem venue_coupled (level : Level) :
    (venue left threshold level).Coupled (bond.withState Memory) (venue right threshold level) where
  now := bond.lift h.now
  sleep seconds := bond.lift (h.sleep seconds)
  log record := bond.lift (log_coupled h threshold record)
  call := callPage_coupled h threshold
  cancelRequested := Coupling.bind _ (fun _ => bond.pure _) fun _ => Coupling.pure _ _
  report held := bond.lift (reportCount_coupled h threshold level held)

theorem endWithout_coupled (stop : Stop) :
    bond.rel (endWithout left threshold stop) (endWithout right threshold stop) := by
  cases stop with
  | cancelled held => exact bond.bind (say_coupled h threshold _ _) fun _ => bond.pure _
  | aborted reason held => exact bond.bind (say_coupled h threshold _ _) fun _ => bond.pure _
  | broke fault => exact bond.pure _

theorem concludeFetch_coupled (answer : Except Stop (List Candle)) :
    bond.rel (concludeFetch left threshold answer) (concludeFetch right threshold answer) := by
  cases answer with
  | ok candles => exact bond.pure _
  | error stop => exact bond.bind (endWithout_coupled h threshold stop) fun _ => bond.pure _

theorem showBanner_coupled (settings : Settings) (options : Options) :
    bond.rel (showBanner left threshold settings options)
      (showBanner right threshold settings options) := by
  unfold showBanner
  split
  · exact bond.pure _
  · exact bond.forM (fun line => say_coupled h threshold .info line) _

theorem fetchSeries_coupled (settings : Settings) (options : Options) (setup : Setup) :
    (bond.withState Memory).rel (fetchSeries left threshold settings options setup)
      (fetchSeries right threshold settings options setup) := by
  unfold fetchSeries
  refine Coupling.bind _ (Coupling.fetch _ (venue_coupled h threshold _) _ _ _ _ _) fun reply => ?_
  refine Coupling.bind _ (bond.lift (concludeFetch_coupled h threshold reply.1)) fun outcome => ?_
  exact Coupling.bind _ (fun _ => bond.pure _) fun _ => Coupling.pure _ _

/-- Runs up to their output are related. -/
theorem obtainSeries_coupled (settings : Settings) (options : Options) :
    (bond.withState Memory).rel (obtainSeries left threshold settings options)
      (obtainSeries right threshold settings options) := by
  unfold obtainSeries
  refine Coupling.bind _ (bond.lift (showBanner_coupled h threshold settings options)) fun _ => ?_
  rcases prepare settings options with fault | (reason | setup)
  · exact Coupling.pure _ _
  · refine Coupling.bind _ (bond.lift (say_coupled h threshold _ _)) fun _ => ?_
    exact Coupling.bind _ (fun _ => bond.pure _) fun _ => Coupling.pure _ _
  · exact fetchSeries_coupled h threshold settings options setup

theorem endOutput_coupled (options : Options) (candles : List Candle)
    (written : Except Fault Unit) :
    bond.rel (endOutput left threshold options candles written)
      (endOutput right threshold options candles written) := by
  cases written with
  | error fault => exact bond.pure _
  | ok done =>
      unfold endOutput
      dsimp only
      split
      · exact bond.bind (log_coupled h threshold _) fun _ => bond.pure _
      · exact bond.pure _

end

section Output

variable [LawfulMonad m] [LawfulMonad n] {bond : Coupling m n}

/-- Writers of lines are related if what they print with and what makes their lines are. -/
theorem writeLines_coupled {α : Type} {print : String → m Unit} {otherPrint : String → n Unit}
    (hprint : ∀ text, bond.rel (print text) (otherPrint text))
    {line : α → ExceptT Fault m String} {otherLine : α → ExceptT Fault n String}
    (hline : ∀ item, (bond.withFault Fault).rel (line item) (otherLine item)) (items : List α) :
    (bond.withFault Fault).rel (Report.writeLines print line items)
      (Report.writeLines otherPrint otherLine items) :=
  Coupling.forM _ (fun item => Coupling.bind _ (hline item) fun text =>
    bond.liftFault (hprint (text ++ "\n"))) items

variable {left : World m} {right : World n} (options : Options)

theorem render_coupled (hprint : ∀ text, bond.rel (left.print text) (right.print text))
    (hclock : bond.rel left.wallTime right.wallTime) (candles : List Candle) :
    (bond.withFault Fault).rel (render left options candles) (render right options candles) := by
  have hshown (text : String) : (bond.withFault Fault).rel (liftM (left.print text))
      (liftM (right.print text)) := bond.liftFault (hprint text)
  unfold render
  split
  · refine writeLines_coupled hprint (fun candle => ?_) candles
    refine Coupling.bind _ (Coupling.bind _ (bond.withFault_refl _) fun exchangeTime => ?_)
      fun event => bond.withFault_refl _
    refine Coupling.bind _ (bond.liftFault (bond.map hclock _)) fun receivedTime => ?_
    exact Coupling.bind _ (bond.withFault_refl _) fun closeTime => Coupling.pure _ _
  · refine Coupling.bind _ (hshown _) fun _ => Coupling.bind _ (hshown _) fun _ => ?_
    refine Coupling.bind _ (hshown _) fun _ => Coupling.bind _ ?_ fun _ => hshown _
    exact writeLines_coupled hprint (fun candle => bond.withFault_refl _) candles

/-- Worlds whose operations are all related. -/
structure World.Alike (bond : Coupling m n) (left : World m) (right : World n) : Prop extends
    left.Coupled bond right where
  print : ∀ text, bond.rel (left.print text) (right.print text)
  wallTime : bond.rel left.wallTime right.wallTime

/-- Whole runs are related. -/
theorem runFetch_coupled (h : left.Alike bond right) (threshold : Nat) (settings : Settings) :
    (bond.withState Memory).rel (runFetch left threshold settings options)
      (runFetch right threshold settings options) := by
  refine Coupling.bind _ (obtainSeries_coupled h.toCoupled threshold settings options) ?_
  rintro (ending | candles)
  · exact Coupling.pure _ _
  · have hrender := render_coupled options h.print h.wallTime candles
    refine bond.lift (bond.bind hrender fun written => ?_)
    exact endOutput_coupled h.toCoupled threshold options candles written

end Output

section Printed

open Report (Output noting notingTime writingDown)

variable {σ α : Type}

/-- Does something that puts nothing out. -/
def World.quietly (act : StateM σ α) : StateM (σ × Output) α := writingDown act fun _ => { }

/-- The world whose standard output is written down, with the times that its clock shows. -/
def World.withOutput (world : World (StateM σ)) : World (StateM (σ × Output)) where
  now := quietly world.now
  sleep seconds := quietly (world.sleep seconds)
  send request := quietly (world.send request)
  wallTime := notingTime world.wallTime
  print := noting world.print
  complain text := quietly (world.complain text)
  logLine line := quietly (world.logLine line)

/-- The second of two computations does what the first one does, and leaves the output alone. -/
def printingNothing (σ : Type) : Coupling (StateM σ) (StateM (σ × Output)) where
  rel plain noted := ∀ state,
    noted state = ((plain state.1).1, (plain state.1).2, state.2)
  pure _ _ := rfl
  bind {_ _ x y f g} hfirst hnext state := by
    calc (y >>= g) state = g (y state).1 (y state).2 := rfl
      _ = g (x state.1).1 ((x state.1).2, state.2) := by rw [hfirst state]
      _ = _ := hnext _ _

theorem quietly_coupled (act : StateM σ α) :
    (printingNothing σ).rel act (World.quietly act) := by
  intro state
  rw [World.quietly, writingDown, Output.append_nothing]

theorem World.withOutput_coupled (world : World (StateM σ)) :
    world.Coupled (printingNothing σ) world.withOutput where
  now := quietly_coupled _
  sleep _ := quietly_coupled _
  send _ := quietly_coupled _
  complain _ := quietly_coupled _
  logLine _ := quietly_coupled _

/-- A run up to its output puts nothing out, and is not influenced by what was put out before. -/
theorem obtainSeries_withOutput (world : World (StateM σ)) (threshold : Nat) (settings : Settings)
    (options : Options) (memory : Memory) (state : σ) (output : Output) :
    obtainSeries world.withOutput threshold settings options memory (state, output) =
      ((obtainSeries world threshold settings options memory state).1,
        (obtainSeries world threshold settings options memory state).2, output) :=
  obtainSeries_coupled world.withOutput_coupled threshold settings options memory (state, output)

/-- The second of two computations does what the first one does, and may put something out. -/
def puttingOut (σ : Type) : Coupling (StateM σ) (StateM (σ × Output)) where
  rel plain noted := ∀ state, ∃ after, noted state = ((plain state.1).1, (plain state.1).2, after)
  pure _ state := ⟨state.2, rfl⟩
  bind {_ _ x y f g} hfirst hnext state := by
    obtain ⟨middle, hmiddle⟩ := hfirst state
    obtain ⟨after, hafter⟩ := hnext (x state.1).1 ((x state.1).2, middle)
    refine ⟨after, ?_⟩
    calc (y >>= g) state = g (y state).1 (y state).2 := rfl
      _ = g (x state.1).1 ((x state.1).2, middle) := by rw [hmiddle]
      _ = _ := hafter

theorem World.withOutput_alike (world : World (StateM σ)) :
    world.Alike (puttingOut σ) world.withOutput where
  now _ := ⟨_, rfl⟩
  sleep _ _ := ⟨_, rfl⟩
  send _ _ := ⟨_, rfl⟩
  wallTime _ := ⟨_, rfl⟩
  print _ _ := ⟨_, rfl⟩
  complain _ _ := ⟨_, rfl⟩
  logLine _ _ := ⟨_, rfl⟩

/-- A run does not notice that its output is written down. -/
theorem runFetch_withOutput (world : World (StateM σ)) (threshold : Nat) (settings : Settings)
    (options : Options) (memory : Memory) (state : σ) (output : Output) :
    ∃ after, runFetch world.withOutput threshold settings options memory (state, output) =
      ((runFetch world threshold settings options memory state).1,
        (runFetch world threshold settings options memory state).2, after) :=
  runFetch_coupled options world.withOutput_alike threshold settings memory (state, output)

end Printed

end Program

end CandleHistory
