import CandleHistory.Proofs.AcceptedOptions
import CandleHistory.Proofs.Printing
import CandleHistory.Proofs.Rendering

/-!
What a run leaves on its standard output. A run that fetches no series prints nothing; one that does
prints what its series comes to, and this is all that it prints. So the output is complete after a
regular end, and otherwise there is none, unless the writer fails below the first line.
-/

namespace CandleHistory.Program

open Calendar (Instant UtcTime WallTime)
open CommandLine (Options)

variable {σ : Type}

/-- How a run ended, what it put out, and what it had fetched. -/
structure Observed where
  ending : Ending
  output : Report.Output
  series : Except Ending (List Candle)

/-- How a run ends after it has written a series, or has failed to. -/
def endingAfter : Except Fault Unit → Ending
  | .error fault => .crashed fault
  | .ok () => .exited statusOk

/-- What a candle needs for a table. -/
theorem writable_iff_of_table {options : Options} {candle : Candle}
    (h : writesEvents options = false) :
    Writable options candle ↔ Succeeds (Instant.ofMillis candle.openTime) ∧
      ∀ d ∈ [candle.openPrice, candle.highPrice, candle.lowPrice, candle.closePrice,
        candle.volume, candle.turnover], d.fixedText? Report.Table.places ≠ none := by
  rw [← Report.Table.row_succeeds_iff]
  unfold Writable
  simp only [candleLine_of_table h, forall_const]

/-- What a candle needs for events. -/
theorem writable_iff_of_events {options : Options} {candle : Candle}
    (hoptions : options.Accepted) (h : writesEvents options = true) :
    Writable options candle ↔
      Succeeds (Instant.ofMillis candle.openTime) ∧ Succeeds (Instant.ofMillis candle.closeTime) ∧
        (∀ d ∈ [candle.openPrice, candle.highPrice, candle.lowPrice, candle.closePrice,
          candle.volume], d.toBinary64? ≠ none) ∧
        candle.tradeCount.natAbs < Number.integerBound := by
  obtain ⟨instrument, hindex, -, hshort⟩ := hoptions.instrument (of_decide_eq_true h)
  unfold Writable
  simp only [candleLine_of_events h hindex, Report.MarketEvent.lineAt_succeeds_iff, forall_const,
    hshort, true_and]

theorem not_writable_of_error {options : Options} {received : UtcTime} {candle : Candle}
    {fault : Fault} (h : candleLine options received candle = .error fault) :
    ¬ Writable options candle :=
  fun hwritable => Succeeds.not_of_error h (hwritable received)

namespace Observed

/-- After a regular end, the output is complete. -/
def CompleteIfOk (options : Options) (run : Observed) : Prop :=
  run.ending = .exited statusOk →
    ∃ candles, run.series = .ok candles ∧ CompleteOutput options candles run.output

/-- After any other end, there is no output. -/
def EmptyUnlessOk (run : Observed) : Prop :=
  run.ending ≠ .exited statusOk → run.output.text = ""

/-- No candle of the series makes the writer break off after it has begun to write: every one can be
written, or events are to be written and already the first one cannot. -/
def NeverBreaksOff (options : Options) (run : Observed) : Prop :=
  ∀ candles, run.series = .ok candles →
    (∀ candle ∈ candles, Writable options candle) ∨
      (writesEvents options = true ∧ ∃ first rest, candles = first :: rest ∧
        ¬ Writable options first)

/-- What is seen hangs together: without a series nothing is put out, and a series is put out as far
as it can be written. -/
structure Follows (options : Options) (run : Observed) : Prop where
  without : ∀ {ending}, run.series = .error ending →
    run.ending = ending ∧ ending ≠ .exited statusOk ∧ run.output = { }
  written : ∀ {candles}, run.series = .ok candles →
    ∃ result, Rendered options candles result run.output ∧ run.ending = endingAfter result

end Observed

/-- What can be seen of a run with given settings and options. -/
def observe (world : World (StateM σ)) (threshold : Nat) (settings : Settings) (options : Options)
    (memory : Memory) (state : σ) : Observed :=
  let finished := runFetch world.withOutput threshold settings options memory (state, { })
  let obtained := obtainSeries world threshold settings options memory state
  { ending := finished.1.1
    output := finished.2.2
    series := obtained.1.1 }

theorem observe_series (world : World (StateM σ)) (threshold : Nat) (settings : Settings)
    (options : Options) (memory : Memory) (state : σ) :
    (observe world threshold settings options memory state).series =
      (obtainSeries world threshold settings options memory state).1.1 := by
  unfold observe
  dsimp only

/-- A run ends as it does if its output is not written down. -/
theorem observe_ending (world : World (StateM σ)) (threshold : Nat) (settings : Settings)
    (options : Options) (memory : Memory) (state : σ) :
    (observe world threshold settings options memory state).ending =
      (runFetch world threshold settings options memory state).1.1 := by
  obtain ⟨after, hrun⟩ := runFetch_withOutput world threshold settings options memory state { }
  unfold observe
  dsimp only
  rw [hrun]

theorem endOutput_eq (world : World (StateM σ)) (threshold : Nat) (options : Options)
    (candles : List Candle) (written : Except Fault Unit) (state : σ) :
    (endOutput world threshold options candles written state).1 = endingAfter written := by
  cases written with
  | error fault => rfl
  | ok done =>
      unfold endOutput
      dsimp only
      split <;> rfl

/-- Writing a series puts out what the series comes to, and nothing else. -/
theorem output_withOutput (world : World (StateM σ)) (threshold : Nat) {options : Options}
    (hoptions : options.Accepted) (candles : List Candle) (state : σ) :
    ∃ result after written, Rendered options candles result written ∧
      output world.withOutput threshold options candles (state, { }) =
        (endingAfter result, after, written) := by
  obtain ⟨result, middle, written, hrun, hrendered⟩ :=
    render_puts world hoptions candles state { }
  rw [Report.Output.nothing_append] at hrun
  have hend := endOutput_coupled world.withOutput_coupled threshold options candles result
    (middle, written)
  refine ⟨result, (endOutput world threshold options candles result middle).2, written, hrendered,
    ?_⟩
  unfold output
  change endOutput world.withOutput threshold options candles
    ((render world.withOutput options candles).run (state, { })).1
    ((render world.withOutput options candles).run (state, { })).2 = _
  rw [hrun, hend, endOutput_eq]

theorem endWithout_ne (world : World (StateM σ)) (threshold : Nat) (stop : Stop) (state : σ) :
    (endWithout world threshold stop state).1 ≠ .exited statusOk := by
  cases stop with
  | cancelled held => exact nofun
  | aborted reason held => exact nofun
  | broke fault => exact nofun

theorem concludeFetch_ne (world : World (StateM σ)) (threshold : Nat)
    (answer : Except Stop (List Candle)) (state : σ) {ending : Ending}
    (h : (concludeFetch world threshold answer state).1 = .error ending) :
    ending ≠ .exited statusOk := by
  cases answer with
  | ok candles => cases h
  | error stop =>
      have hending : (endWithout world threshold stop state).1 = ending := Except.error.inj h
      rw [← hending]
      exact endWithout_ne world threshold stop state

/-- A run that obtains no series does not end as after a complete output. -/
theorem obtainSeries_ne (world : World (StateM σ)) (threshold : Nat) (settings : Settings)
    (options : Options) (memory : Memory) (state : σ) {ending : Ending}
    (h : (obtainSeries world threshold settings options memory state).1.1 = .error ending) :
    ending ≠ .exited statusOk := by
  unfold obtainSeries at h
  rw [bind_memory] at h
  rcases hprepare : prepare settings options with fault | (reason | setup)
  · rw [hprepare] at h
    cases h
    exact nofun
  · rw [hprepare] at h
    cases h
    exact nofun
  · rw [hprepare] at h
    dsimp only at h
    unfold fetchSeries at h
    rw [bind_memory] at h
    exact concludeFetch_ne world threshold _ _ h

variable (world : World (StateM σ)) (threshold : Nat) (settings : Settings) (options : Options)
  (memory : Memory) (state : σ)

/-- What is seen of a run hangs together. -/
theorem observe_follows (hoptions : options.Accepted) :
    (observe world threshold settings options memory state).Follows options := by
  have hobtained := obtainSeries_withOutput world threshold settings options memory state { }
  unfold observe
  constructor
  · intro ending hseries
    dsimp only at hseries ⊢
    unfold runFetch
    rw [bind_memory, hobtained]
    dsimp only
    rw [hseries]
    exact ⟨rfl, obtainSeries_ne world threshold settings options memory state hseries, rfl⟩
  · intro candles hseries
    dsimp only at hseries ⊢
    obtain ⟨result, after, written, hrendered, houtput⟩ := output_withOutput world threshold
      hoptions candles (obtainSeries world threshold settings options memory state).2
    unfold runFetch
    rw [bind_memory, hobtained]
    dsimp only
    rw [hseries]
    dsimp only
    rw [lift_memory, houtput]
    exact ⟨result, hrendered, rfl⟩

namespace Observed

variable {options : Options} {run : Observed}

theorem Follows.completeIfOk (h : run.Follows options) : run.CompleteIfOk options := by
  intro hok
  cases hseries : run.series with
  | error ending =>
      obtain ⟨hending, hne, -⟩ := h.without hseries
      exact absurd (hending.symm.trans hok) hne
  | ok candles =>
      obtain ⟨result, hrendered, hending⟩ := h.written hseries
      cases hrendered with
      | complete hcomplete => exact ⟨candles, rfl, hcomplete⟩
      | brokenOff =>
          rw [hok] at hending
          cases hending

theorem Follows.emptyUnlessOk_iff (h : run.Follows options) :
    run.EmptyUnlessOk ↔ run.NeverBreaksOff options := by
  unfold EmptyUnlessOk NeverBreaksOff
  cases hseries : run.series with
  | error ending =>
      obtain ⟨-, -, hnothing⟩ := h.without hseries
      rw [hnothing]
      exact ⟨fun _ => nofun, fun _ _ => rfl⟩
  | ok candles =>
      obtain ⟨result, hrendered, hending⟩ := h.written hseries
      cases hrendered with
      | complete hcomplete hall =>
          constructor
          · rintro - _ ⟨⟩
            exact Or.inl hall
          · intro _ hne
            exact absurd hending hne
      | @brokenOff done rest candle received fault _ hsplit hdone hcandle hempty =>
          have hnot := not_writable_of_error hcandle
          subst hsplit
          constructor
          · rintro hquiet _ ⟨⟩
            obtain ⟨hevents, rfl⟩ := hempty.mp (hquiet (by rw [hending]; exact nofun))
            exact Or.inr ⟨hevents, candle, rest, rfl, hnot⟩
          · intro hwhole _
            rcases hwhole _ rfl with hall | ⟨hevents, first, others, hfirst, hunwritable⟩
            · exact absurd (hall candle (List.mem_append_right done List.mem_cons_self)) hnot
            · refine hempty.mpr ⟨hevents, ?_⟩
              cases done with
              | nil => rfl
              | cons earlier later =>
                  cases hfirst
                  exact absurd (hdone first List.mem_cons_self) hunwritable

end Observed

/-- After a regular end the output of a run is complete. After any other end there is no output, if
and only if no candle of the series makes the writer break off after it has begun. -/
theorem observe_all_or_nothing {arguments : List String}
    (hread : Options.read arguments = .options options) :
    (observe world threshold settings options memory state).CompleteIfOk options ∧
      ((observe world threshold settings options memory state).EmptyUnlessOk ↔
        (observe world threshold settings options memory state).NeverBreaksOff options) := by
  have hoptions := Options.accepted_of_read hread
  have hfollows := observe_follows world threshold settings options memory state hoptions
  exact ⟨hfollows.completeIfOk, hfollows.emptyUnlessOk_iff⟩

/-- Whether the program ends as after a complete output. -/
def Ending.isOk : Ending → Bool
  | .exited status => status == statusOk
  | .crashed _ => false

theorem Observed.not_emptyUnlessOk {run : Observed}
    (h : run.ending.isOk = false ∧ run.output.text ≠ "") : ¬ run.EmptyUnlessOk := by
  obtain ⟨hending, htext⟩ := h
  intro hempty
  apply htext
  apply hempty
  intro hok
  rw [hok] at hending
  cases hending

/-- A world in which every request is answered with the same document. -/
def World.answering (document : Value) : World (StateM Unit) where
  now := pure .zero
  sleep _ := pure ()
  send _ := pure { reply := .response 200 (.decoded document) }
  wallTime := pure default
  print _ := pure ()
  complain _ := pure ()
  logLine _ := pure ()

/-- A row for a bar that opens at a given time. -/
def plainRow (openTime : String) : Value :=
  .list ([openTime, "1", "2", "0.5", "1.5", "10", "15"].map .text)

/-- A page with a bar of the year 2024 and another one of the year 10000. -/
def lateBar : Value :=
  .object [("retCode", .integer 0),
    ("result", .object [("list", .list [plainRow "1704067200000", plainRow "253402300800000"])])]

/-- Options for a day, as a table. -/
def oneDay : Options where
  symbol := "BTCUSDT"
  interval := .minutes15
  category := .linear
  range := ⟨1704067200000, 1704153600000, by decide⟩
  startDate := "2024/01/01"
  endDate := "2024/01/02"
  maxRecords := 1000
  outputFormat := .value .table
  instrumentIndex := none
  testnet := false
  logLevel := none

theorem observe_all_or_nothing_lateBar :
    ¬ (observe (World.answering lateBar) Level.info.rank { } oneDay { client := .make "" .zero }
      ()).NeverBreaksOff oneDay := by
  have hread : Options.read ["--start-date", "2024/01/01", "--end-date", "2024/01/02"] =
      .options oneDay := CommandLine.Outcome.eq_options (by decide +kernel)
  have hexact := (observe_all_or_nothing (World.answering lateBar) Level.info.rank { } oneDay
    { client := .make "" .zero } () hread).2
  rw [← hexact]
  exact Observed.not_emptyUnlessOk (by decide +kernel)

end CandleHistory.Program
