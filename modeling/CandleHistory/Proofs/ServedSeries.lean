import CandleHistory.Proofs.AcceptedOptions
import CandleHistory.Proofs.Recording
import CandleHistory.Proofs.Replies
import CandleHistory.Proofs.Served
import CandleHistory.Proofs.Unannounced

/-!
What a run obtains from an exchange that serves it. The client's memory and the world behind it
count as one state here, so that a fetch of the program is a fetch at a venue with a state.
-/

namespace CandleHistory.Program

open CommandLine (Options)
open Number (Binary64)

variable {σ α : Type}

/-- Does something, with the memory and the world in one state. -/
def jointly (act : StateT Memory (StateM σ) α) : StateM (Memory × σ) α :=
  fun state => ((act state.1 state.2).1.1, (act state.1 state.2).1.2, (act state.1 state.2).2)

/-- It makes no difference whether the memory and the world are kept in one state. -/
def joining (σ : Type) : Coupling (StateT Memory (StateM σ)) (StateM (Memory × σ)) where
  rel apart joint := joint = jointly apart
  pure _ := rfl
  bind {_ _ x y f g} hfirst hnext := by
    have hrest : g = fun a => jointly (f a) := funext hnext
    rw [hfirst, hrest]
    rfl

/-- The exchange as a fetch sees it, with the memory and the world in one state. -/
def jointVenue (world : World (StateM σ)) (threshold : Nat) (level : Level) :
    Venue Binary64 (StateM (Memory × σ)) :=
  let apart := venue world threshold level
  { now := jointly apart.now
    sleep := fun delay => jointly (apart.sleep delay)
    log := fun record => jointly (apart.log record)
    call := fun call => jointly (apart.call call)
    cancelRequested := jointly apart.cancelRequested
    report := fun held => jointly (apart.report held) }

theorem jointVenue_coupled (world : World (StateM σ)) (threshold : Nat) (level : Level) :
    (venue world threshold level).Coupled (joining σ) (jointVenue world threshold level) where
  now := rfl
  sleep _ := rfl
  log _ := rfl
  call _ := rfl
  cancelRequested := rfl
  report _ := rfl

theorem jointVenue_undisturbed (world : World (StateM σ)) (threshold : Nat) (level : Level) :
    (jointVenue world threshold level).Undisturbed
      fun state => state.1.cancelRequested = false where
  now _ hcalm := hcalm
  sleep _ _ hcalm := hcalm
  log _ _ hcalm := hcalm
  cancelRequested _ hcalm := ⟨hcalm, hcalm⟩

/-- An exchange that serves every call, whatever the state of the world is. -/
def World.Serves (world : World (StateM σ)) : Prop :=
  ∀ (client : Client) (call : PageCall) (state : σ),
    call.ServedBy (world.send (client.request (query call)) state).1.reply.read.result

theorem World.Serves.answers {world : World (StateM σ)} (h : world.Serves) {threshold : Nat}
    {level : Level} {call : PageCall} {answer : PageAnswer}
    (hanswer : (jointVenue world threshold level).conduct.answers call answer) :
    call.ServedBy answer := by
  obtain ⟨⟨memory, state⟩, rfl⟩ := hanswer
  have hcall : ((jointVenue world threshold level).call call (memory, state)).1 =
      (callPage world threshold call memory state).1.1 := rfl
  rw [hcall, callPage_result]
  exact h _ call state

/-- What a served fetch comes to: a series that is sound, or an end that no fault has brought about.
-/
inductive Delivered (range : DateRange) : Except Stop (List Candle) → Prop
  | series {candles : List Candle} :
      (∀ candle ∈ candles, candle.Sound range) → Delivered range (.ok candles)
  | stopped {stop : Stop} : stop.Orderly → Delivered range (.error stop)

/-- What the fetch of a run comes to. -/
def fetched (world : World (StateM σ)) (threshold : Nat) (settings : Settings) (options : Options)
    (setup : Setup) (memory : Memory) (state : σ) : Except Stop (List Candle) :=
  (fetch (venue world threshold (progressLevel options)) settings.maxRetries setup.request
    options.range options.maxRecords setup.spacing memory state).1.1.1

section

variable (world : World (StateM σ)) (threshold : Nat) {settings : Settings} {options : Options}
  {setup : Setup}

theorem fetched_eq_joint (memory : Memory) (state : σ) :
    (fetch (jointVenue world threshold (progressLevel options)) settings.maxRetries setup.request
      options.range options.maxRecords setup.spacing (memory, state)).1.1 =
        fetched world threshold settings options setup memory state := by
  have hjoint := (joining σ).fetch (jointVenue_coupled world threshold (progressLevel options))
    settings.maxRetries setup.request options.range options.maxRecords setup.spacing
  rw [hjoint]
  rfl

/-- The fetch of a run is delivered if the exchange serves it and its attempts can be announced. -/
theorem fetched_delivered (hserves : world.Serves) (hoptions : options.Accepted)
    (hrange : options.range.InCalendar)
    (hsmall : (settings.maxRetries + 1).natAbs < Number.integerBound) (memory : Memory)
    (state : σ) :
    Delivered options.range (fetched world threshold settings options setup memory state) := by
  obtain ⟨plan, hplan, hplanRange, -, -⟩ :=
    Plan.make_isOk options.range setup.request.interval setup.request.one_le_limit
  obtain ⟨series, hseries, hempty, -⟩ := Series.make_isOk Candle hoptions.maxRecords
  let venue := jointVenue world threshold (progressLevel options)
  obtain ⟨outcome, after, hrun, hanswer⟩ :=
    venue.exists_run hplan hseries (Plan.announceable_of_make hplan hrange) settings.maxRetries
      setup.spacing (memory, state)
  have hserved := hrun.served (fun chunk answer hanswer => hserves.answers hanswer)
    (by rw [hplanRange]; exact hrange) hsmall plan.within_first (by simp [hempty])
  rw [← fetched_eq_joint, hanswer]
  cases outcome with
  | error stop => exact .stopped hserved
  | ok series =>
      refine .series fun candle hmem => ?_
      rw [← hplanRange]
      exact hserved candle (List.mem_of_mem_take hmem)

/-- If the number of its attempts has too many digits, the fetch of a run ends for this reason,
unless someone wished to cancel before. -/
theorem fetched_of_not_announceable (hoptions : options.Accepted)
    (hrange : options.range.InCalendar)
    (hlarge : ¬ (settings.maxRetries + 1).natAbs < Number.integerBound) {memory : Memory}
    (hcalm : memory.cancelRequested = false) (state : σ) :
    fetched world threshold settings options setup memory state =
      .error (.broke .tooManyDigits) := by
  rw [← fetched_eq_joint, (jointVenue_undisturbed world threshold (progressLevel options)).fetch
    hoptions.maxRecords hoptions.range hrange hlarge setup.spacing (memory, state) hcalm]

end

end CandleHistory.Program
