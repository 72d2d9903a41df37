import CandleHistory.Proofs.PrintableCandles
import CandleHistory.Proofs.ServedSeries

/-!
How a fetch and its output end. If the exchange serves every call, they end with a documented
status, unless the pause between calls or the number of attempts is too large, or a candle cannot be
written.
-/

namespace CandleHistory.Program

open CommandLine (Options)
open Number (Binary64)

variable {σ : Type}

/-- The statuses that the program is meant to end with. -/
def documentedStatuses : List Nat := [statusOk, statusAborted, statusInvalid, statusCancelled]

/-- The program ends with a documented status. -/
inductive Ending.IsDocumented : Ending → Prop
  | exited {status : Nat} : status ∈ documentedStatuses → IsDocumented (.exited status)

/-- The program ends by a fault, and not by an interruption, which it knows how to handle. -/
inductive Ending.IsBroken : Ending → Prop
  | crashed {fault : Fault} : fault ≠ .interrupted → IsBroken (.crashed fault)

namespace Ending

variable {ending : Ending} (world : World (StateM σ)) (level : Nat) (state : σ)

theorem IsBroken.not_isDocumented (h : ending.IsBroken) : ¬ ending.IsDocumented := by
  cases h with
  | crashed hfault => exact nofun

theorem IsDocumented.settle (h : ending.IsDocumented) :
    (ending.settle world level state).1.IsDocumented := by
  cases h with
  | exited hstatus => exact .exited hstatus

theorem IsBroken.settle (h : ending.IsBroken) : (ending.settle world level state).1.IsBroken := by
  cases h with
  | @crashed fault hfault =>
      cases fault with
      | interrupted => exact absurd rfl hfault
      | _ => exact .crashed nofun

end Ending

section Fetch

/-- How a run ends whose fetch gave no series. -/
def endingOf : Stop → Ending
  | .cancelled _ => .exited statusCancelled
  | .aborted .. => .exited statusAborted
  | .broke fault => .crashed fault

theorem endingOf_isDocumented {stop : Stop} (h : stop.Orderly) : (endingOf stop).IsDocumented := by
  cases stop with
  | cancelled held => exact .exited (by simp [documentedStatuses])
  | aborted reason held => exact .exited (by simp [documentedStatuses])
  | broke fault => cases h

variable (world : World (StateM σ)) (level : Nat) {settings : Settings} {options : Options}
  (memory : Memory) (state : σ)

theorem concludeFetch_eq (answer : Except Stop (List Candle)) :
    (concludeFetch world level answer state).1 = answer.mapError endingOf := by
  cases answer with
  | ok candles => rfl
  | error stop => cases stop <;> rfl

theorem obtainSeries_of_fault {fault : Fault} (h : prepare settings options = .error fault) :
    (obtainSeries world level settings options memory state).1.1 = .error (.crashed fault) := by
  unfold obtainSeries
  rw [bind_memory, h]
  rfl

theorem obtainSeries_of_refused {reason : SetupError}
    (h : prepare settings options = .ok (.error reason)) :
    (obtainSeries world level settings options memory state).1.1 =
      .error (.exited statusInvalid) := by
  unfold obtainSeries
  rw [bind_memory, h]
  rfl

theorem obtainSeries_of_setup {setup : Setup} (h : prepare settings options = .ok (.ok setup)) :
    (obtainSeries world level settings options memory state).1.1 =
      (fetched world level settings options setup memory
        (showBanner world level settings options state).2).mapError endingOf := by
  unfold obtainSeries
  rw [bind_memory, h]
  dsimp only
  unfold fetchSeries
  rw [bind_memory]
  exact concludeFetch_eq world level _ _

theorem runFetch_of_error {ending : Ending}
    (h : (obtainSeries world level settings options memory state).1.1 = .error ending) :
    (runFetch world level settings options memory state).1.1 = ending := by
  unfold runFetch
  rw [bind_memory, h]
  rfl

/-- A run that obtains a series ends as the writing of the series does. -/
theorem runFetch_of_series (hoptions : options.Accepted) {candles : List Candle}
    (h : (obtainSeries world level settings options memory state).1.1 = .ok candles) :
    ∃ result output, Rendered options candles result output ∧
      (runFetch world level settings options memory state).1.1 = endingAfter result := by
  have hfollows := observe_follows world level settings options memory state hoptions
  rw [← observe_series] at h
  obtain ⟨result, hrendered, hending⟩ := hfollows.written h
  rw [observe_ending] at hending
  exact ⟨result, _, hrendered, hending⟩

theorem fittingPause_eq_error_iff {seconds : Binary64} {fault : Fault} :
    Settings.fittingPause seconds = .error fault ↔
      (∃ negative, seconds = .infinite negative) ∧ fault = .spacingTooLong := by
  cases seconds with
  | infinite negative => simp [Settings.fittingPause, eq_comm]
  | finite negative units => simp [Settings.fittingPause]
  | nan => simp [Settings.fittingPause]

/-- The pause between calls does not fit a double. -/
def PauseTooLong (settings : Settings) : Prop :=
  ∃ negative, Binary64.ofIntRatio settings.spacingMillis 1000 = .infinite negative

theorem spacing_eq_error_iff {fault : Fault} :
    settings.spacing = .error fault ↔ PauseTooLong settings ∧ fault = .spacingTooLong := by
  unfold Settings.spacing PauseTooLong
  exact fittingPause_eq_error_iff

/-- It breaks the preparation of a fetch off if its request is accepted and the pause between its
calls does not fit a double. -/
theorem prepare_eq_error_iff {fault : Fault} :
    prepare settings options = .error fault ↔
      Succeeds (Request.make options.symbol options.interval options.category
        (min settings.pageLimit largestPage)) ∧
      PauseTooLong settings ∧ fault = .spacingTooLong := by
  rw [← spacing_eq_error_iff]
  unfold prepare
  dsimp only
  cases Request.make options.symbol options.interval options.category
      (min settings.pageLimit largestPage) with
  | error reason => simp [Succeeds]
  | ok request =>
      generalize settings.spacing = gap
      cases gap with
      | error reason => simp [Succeeds, Except.map]
      | ok gap => simp [Except.map]

end Fetch

/-- What breaks off a fetch and its output: the pause between calls does not fit a double, the
number of attempts has too many digits to be announced, or a candle cannot be written. -/
inductive FetchMishap (world : World (StateM σ)) (level : Nat) (settings : Settings)
    (options : Options) (memory : Memory) (state : σ) : Prop
  | spacing :
      Succeeds (Request.make options.symbol options.interval options.category
        (min settings.pageLimit largestPage)) →
      PauseTooLong settings → FetchMishap world level settings options memory state
  | attempts {setup : Setup} :
      prepare settings options = .ok (.ok setup) →
      ¬ (settings.maxRetries + 1).natAbs < Number.integerBound →
      FetchMishap world level settings options memory state
  | candle {candles : List Candle} {candle : Candle} :
      (obtainSeries world level settings options memory state).1.1 = .ok candles →
      candle ∈ candles → ¬ Printable options candle →
      FetchMishap world level settings options memory state

section Endings

variable {world : World (StateM σ)} {level : Nat} {settings : Settings} {options : Options}
  {memory : Memory} {state : σ}

/-- A mishap of a fetch that can be prepared and announced is one of the output. -/
theorem FetchMishap.iff_of_prepared (hprepared : ∀ fault, prepare settings options ≠ .error fault)
    (hsmall : ∀ setup, prepare settings options = .ok (.ok setup) →
      (settings.maxRetries + 1).natAbs < Number.integerBound) :
    FetchMishap world level settings options memory state ↔
      ∃ candles, (obtainSeries world level settings options memory state).1.1 = .ok candles ∧
        ∃ candle ∈ candles, ¬ Printable options candle := by
  constructor
  · intro hmishap
    cases hmishap with
    | spacing hrequest hlong =>
        exact absurd (prepare_eq_error_iff.mpr ⟨hrequest, hlong, rfl⟩) (hprepared _)
    | attempts hsetup hlarge => exact absurd (hsmall _ hsetup) hlarge
    | candle hseries hmem hnot => exact ⟨_, hseries, _, hmem, hnot⟩
  · rintro ⟨candles, hseries, candle, hmem, hnot⟩
    exact .candle hseries hmem hnot

theorem FetchMishap.not_of_error {ending : Ending}
    (hprepared : ∀ fault, prepare settings options ≠ .error fault)
    (hsmall : ∀ setup, prepare settings options = .ok (.ok setup) →
      (settings.maxRetries + 1).natAbs < Number.integerBound)
    (hseries : (obtainSeries world level settings options memory state).1.1 = .error ending) :
    ¬ FetchMishap world level settings options memory state := by
  rw [FetchMishap.iff_of_prepared hprepared hsmall]
  rintro ⟨candles, hcandles, -⟩
  rw [hseries] at hcandles
  cases hcandles

theorem FetchMishap.iff_of_series {candles : List Candle}
    (hprepared : ∀ fault, prepare settings options ≠ .error fault)
    (hsmall : ∀ setup, prepare settings options = .ok (.ok setup) →
      (settings.maxRetries + 1).natAbs < Number.integerBound)
    (hseries : (obtainSeries world level settings options memory state).1.1 = .ok candles) :
    FetchMishap world level settings options memory state ↔
      ∃ candle ∈ candles, ¬ Printable options candle := by
  rw [FetchMishap.iff_of_prepared hprepared hsmall]
  simp [hseries]

/-- A series whose candles are sound is written whole, unless one of them is not printable. -/
theorem runFetch_of_sound (hoptions : options.Accepted) (hrange : options.range.InCalendar)
    {candles : List Candle}
    (hseries : (obtainSeries world level settings options memory state).1.1 = .ok candles)
    (hsound : ∀ candle ∈ candles, candle.Sound options.range) :
    (∃ candle ∈ candles, ¬ Printable options candle) ∧
        (runFetch world level settings options memory state).1.1.IsBroken ∨
      (¬ ∃ candle ∈ candles, ¬ Printable options candle) ∧
        (runFetch world level settings options memory state).1.1.IsDocumented := by
  obtain ⟨result, output, hrendered, hending⟩ :=
    runFetch_of_series world level memory state hoptions hseries
  have hprintable : ∀ candle ∈ candles, (Writable options candle ↔ Printable options candle) :=
    fun candle hmem => writable_iff_printable hoptions hrange (hsound candle hmem)
  rw [hending]
  rcases hrendered.ending_cases hoptions with
    ⟨hall, hend⟩ | ⟨⟨candle, hmem, hnot⟩, fault, hend, hfault⟩
  · refine Or.inr ⟨?_, ?_⟩
    · rintro ⟨candle, hmem, hnot⟩
      exact hnot ((hprintable candle hmem).mp (hall candle hmem))
    · rw [hend]
      exact .exited List.mem_cons_self
  · refine Or.inl ⟨⟨candle, hmem, fun h => hnot ((hprintable candle hmem).mpr h)⟩, ?_⟩
    rw [hend]
    exact .crashed hfault

/-- A fetch and its output are broken off by a mishap, or else they end with a documented status. -/
theorem runFetch_cases (hserves : world.Serves) (hoptions : options.Accepted)
    (hrange : options.range.InCalendar) (hcalm : memory.cancelRequested = false) :
    FetchMishap world level settings options memory state ∧
        (runFetch world level settings options memory state).1.1.IsBroken ∨
      ¬ FetchMishap world level settings options memory state ∧
        (runFetch world level settings options memory state).1.1.IsDocumented := by
  rcases hprepare : prepare settings options with fault | (reason | setup)
  · have hseries := obtainSeries_of_fault world level memory state hprepare
    obtain ⟨hrequest, hlong, rfl⟩ := prepare_eq_error_iff.mp hprepare
    refine Or.inl ⟨.spacing hrequest hlong, ?_⟩
    rw [runFetch_of_error world level memory state hseries]
    exact .crashed nofun
  · have hseries := obtainSeries_of_refused world level memory state hprepare
    refine Or.inr ⟨FetchMishap.not_of_error (by simp [hprepare]) (by simp [hprepare]) hseries, ?_⟩
    rw [runFetch_of_error world level memory state hseries]
    exact .exited (by simp [documentedStatuses])
  · have hseries := obtainSeries_of_setup world level memory state hprepare
    by_cases hsmall : (settings.maxRetries + 1).natAbs < Number.integerBound
    · have hdelivered : Delivered options.range (fetched world level settings options setup memory
          (showBanner world level settings options state).2) :=
        fetched_delivered world level hserves hoptions hrange hsmall memory _
      -- From here on it does not matter how the answer came about.
      generalize fetched world level settings options setup memory _ = answer
        at hseries hdelivered
      have hprepared : ∀ fault, prepare settings options ≠ .error fault := by simp [hprepare]
      cases hdelivered with
      | stopped horderly =>
          refine Or.inr ⟨FetchMishap.not_of_error hprepared (fun _ _ => hsmall) hseries, ?_⟩
          rw [runFetch_of_error world level memory state hseries]
          exact endingOf_isDocumented horderly
      | series hsound =>
          rw [FetchMishap.iff_of_series hprepared (fun _ _ => hsmall) hseries]
          exact runFetch_of_sound hoptions hrange hseries hsound
    · have hbroke : fetched world level settings options setup memory
          (showBanner world level settings options state).2 = .error (.broke .tooManyDigits) :=
        fetched_of_not_announceable world level hoptions hrange hsmall hcalm _
      rw [hbroke] at hseries
      refine Or.inl ⟨.attempts hprepare hsmall, ?_⟩
      rw [runFetch_of_error world level memory state hseries]
      exact .crashed nofun

end Endings

end CandleHistory.Program
