import CandleHistory.Proofs.FetchMishaps
import CandleHistory.Proofs.Invariance
import CandleHistory.Proofs.NearestDouble
import CandleHistory.Proofs.UpperCase

/-!
What is checked before a fetch is enough. Options that are read from the command line are never
refused later on, and settings are refused only for a limit below one or a negative pause; then the
program ends with the status for invalid input before it has sent or printed anything. A run that
gets past these checks meets all bounds that the fetch asks for.
-/

namespace CandleHistory

open CommandLine (Options)
open Number (Binary64)

theorem CommandLine.Options.normalSymbol_of_read {arguments : List String} {options : Options}
    (h : Options.read arguments = .options options) :
    Request.normalSymbol options.symbol = options.symbol := by
  obtain ⟨given, -, hfrom⟩ := Options.exists_from_of_read h
  have hsymbol := hfrom.symbol
  unfold Options.readSymbol at hsymbol
  cases hgiven : given.symbol with
  | nothing =>
      rw [hgiven] at hsymbol
      cases hsymbol
  | value text =>
      rw [hgiven] at hsymbol
      dsimp only at hsymbol
      split at hsymbol
      case isTrue => cases hsymbol
      case isFalse =>
        rw [← Except.ok.inj hsymbol]
        exact Request.normalSymbol_normalSymbol text

theorem Request.readSymbol_of_normal {symbol : String} (hnormal : normalSymbol symbol = symbol)
    (hne : symbol.isEmpty = false) : readSymbol symbol = .ok symbol := by
  unfold readSymbol
  rw [hnormal]
  simp [hne]

/-- A request for a symbol in its normal form is refused for its limit only. -/
theorem Request.make_of_normal {symbol : String} (hsymbol : readSymbol symbol = .ok symbol)
    (interval : Interval) (category : Category) (limit : Int) :
    Request.make symbol interval category limit =
      if allowed : allowsLimit limit = true then
        .ok { symbol, interval, category, limit, allowed }
      else .error (.limitOutOfRange (.integer limit)) := by
  unfold Request.make
  rw [hsymbol]
  rfl

theorem Request.allowsLimit_min {limit : Int} :
    allowsLimit (min limit largestPage) = true ↔ 1 ≤ limit := by
  unfold allowsLimit largestPage
  simp only [Bool.and_eq_true, decide_eq_true_eq]
  omega

namespace Program

variable {σ : Type} {settings : Settings} {options : Options}

section Prepare

theorem fittingPause_of_finite {seconds : Binary64}
    (h : ¬ ∃ negative, seconds = .infinite negative) :
    Settings.fittingPause seconds = .ok seconds := by
  cases seconds with
  | infinite negative => exact absurd ⟨negative, rfl⟩ h
  | finite negative units => rfl
  | nan => rfl

theorem pause_lt_zero_iff (millis : Int) :
    (Binary64.ofIntRatio millis 1000).lt .zero = true ↔ millis < 0 := by
  apply Binary64.ofIntRatio_lt_zero_iff (by decide)
  calc 1000 ≤ Number.twoPow 10 := by decide
    _ ≤ Number.twoPow 1074 := Number.twoPow_le (by decide)

variable (hsymbol : Request.readSymbol options.symbol = .ok options.symbol)

include hsymbol

theorem prepare_of_limit (hlimit : settings.pageLimit < 1) :
    prepare settings options =
      .ok (.error (.request (.limitOutOfRange (.integer settings.pageLimit)))) := by
  have hmin : min settings.pageLimit largestPage = settings.pageLimit := by
    unfold largestPage
    omega
  have hnot : ¬ Request.allowsLimit (min settings.pageLimit largestPage) = true := by
    rw [Request.allowsLimit_min]
    omega
  unfold prepare
  dsimp only
  rw [Request.make_of_normal hsymbol, dif_neg hnot, hmin]

/-- With a limit that is allowed, it depends on the pause whether a fetch can begin. -/
theorem prepare_of_pause (hlimit : 1 ≤ settings.pageLimit) (hfits : ¬ PauseTooLong settings) :
    prepare settings options =
      if settings.spacingMillis < 0 then
        .ok (.error (.spacing (.negativeSpacing (.ofIntRatio settings.spacingMillis 1000))))
      else
        .ok (.ok
          { request := ⟨options.symbol, options.interval, options.category,
              min settings.pageLimit largestPage, Request.allowsLimit_min.mpr hlimit⟩
            spacing := { gap := .ofIntRatio settings.spacingMillis 1000 } }) := by
  have hspacing : settings.spacing = .ok (Binary64.ofIntRatio settings.spacingMillis 1000) :=
    fittingPause_of_finite hfits
  have hsign := pause_lt_zero_iff settings.spacingMillis
  generalize Binary64.ofIntRatio settings.spacingMillis 1000 = gap at hspacing hsign
  unfold prepare
  dsimp only
  rw [Request.make_of_normal hsymbol, dif_pos (Request.allowsLimit_min.mpr hlimit), hspacing]
  simp only [Except.map, Spacing.make, hsign]
  split <;> rfl

/-- The ways in which the preparation of a fetch comes out: the limit is refused, or else the pause,
or a fetch can begin. -/
inductive Prepared (settings : Settings) (options : Options) :
    Except Fault (Except SetupError Setup) → Prop
  | limit : settings.pageLimit < 1 →
      Prepared settings options
        (.ok (.error (.request (.limitOutOfRange (.integer settings.pageLimit)))))
  | pause (reason) : 1 ≤ settings.pageLimit → settings.spacingMillis < 0 →
      Prepared settings options (.ok (.error (.spacing reason)))
  | ready (setup) : 1 ≤ settings.pageLimit → 0 ≤ settings.spacingMillis →
      setup.request.symbol = options.symbol → Prepared settings options (.ok (.ok setup))

theorem prepared_of_fits (hfits : ¬ PauseTooLong settings) :
    Prepared settings options (prepare settings options) := by
  rcases Int.lt_or_le settings.pageLimit 1 with hlimit | hlimit
  · rw [prepare_of_limit hsymbol hlimit]
    exact .limit hlimit
  · rw [prepare_of_pause hsymbol hlimit hfits]
    split
    case isTrue hnegative => exact .pause _ hlimit hnegative
    case isFalse hpause => exact .ready _ hlimit (Int.not_lt.mp hpause) rfl

omit hsymbol in
theorem Prepared.refused_iff {outcome : Except Fault (Except SetupError Setup)}
    (h : Prepared settings options outcome) :
    (∃ reason, outcome = .ok (.error reason)) ↔
      settings.pageLimit < 1 ∨ settings.spacingMillis < 0 := by
  cases h with
  | limit hlimit => exact iff_of_true ⟨_, rfl⟩ (.inl hlimit)
  | pause reason _ hnegative => exact iff_of_true ⟨_, rfl⟩ (.inr hnegative)
  | ready setup hlimit hpause =>
      refine iff_of_false ?_ (by omega)
      rintro ⟨reason, ⟨⟩⟩

end Prepare

section Watched

/-- Something that a run does and that is more than a line in its log. -/
inductive Deed where
  | sent (request : HttpRequest)
  | printed (text : String)

/-- Does something, and notes the deeds that it consists of. -/
def watching {α : Type} (deeds : List Deed) (act : StateM σ α) : StateM (σ × List Deed) α :=
  fun state => ((act state.1).1, (act state.1).2, state.2 ++ deeds)

/-- The world in which it is noted what is sent and what is printed. -/
def World.watched (world : World (StateM σ)) : World (StateM (σ × List Deed)) where
  now := watching [] world.now
  sleep seconds := watching [] (world.sleep seconds)
  send request := watching [.sent request] (world.send request)
  wallTime := watching [] world.wallTime
  print text := watching [.printed text] (world.print text)
  complain text := watching [] (world.complain text)
  logLine line := watching [] (world.logLine line)

variable (world : World (StateM σ)) (threshold : Nat) (done : List Deed)

theorem say_watched (level : Level) (message : String) :
    Ensures (fun state => state.2 = done) (world.watched.say threshold level message)
      fun _ state => state.2 = done := by
  intro state hdone
  unfold World.say World.log
  split
  · exact (List.append_nil _).trans hdone
  · exact hdone

theorem showBanner_watched :
    Ensures (fun state => state.2 = done) (showBanner world.watched threshold settings options)
      fun _ state => state.2 = done := by
  unfold showBanner
  split
  · exact .pure fun _ hdone => hdone
  · induction banner settings options with
    | nil => exact .pure fun _ hdone => hdone
    | cons line lines ih => exact (say_watched world threshold done .info line).bind fun _ => ih

/-- A run whose settings are refused neither sends nor prints anything. -/
theorem runFetch_watched {reason : SetupError} (h : prepare settings options = .ok (.error reason))
    (memory : Memory) (state : σ) :
    (runFetch world.watched threshold settings options memory (state, done)).2.2 = done := by
  have hbanner : (showBanner world.watched threshold settings options (state, done)).2.2 = done :=
    showBanner_watched world threshold done (state, done) rfl
  unfold runFetch obtainSeries
  rw [h]
  exact say_watched world threshold done .error _ _ hbanner

end Watched

section Status

variable (world : World (StateM σ)) (threshold : Nat) (memory : Memory) (state : σ)

theorem runFetch_ne_of_setup (hoptions : options.Accepted) {setup : Setup}
    (h : prepare settings options = .ok (.ok setup)) :
    (runFetch world threshold settings options memory state).1.1 ≠ .exited statusInvalid := by
  have hobtained := obtainSeries_of_setup world threshold memory state h
  generalize fetched world threshold settings options setup memory _ = answer at hobtained
  cases answer with
  | error stop =>
      rw [runFetch_of_error world threshold memory state hobtained]
      cases stop <;> exact nofun
  | ok candles =>
      obtain ⟨result, output, -, hending⟩ :=
        runFetch_of_series world threshold memory state hoptions hobtained
      rw [hending]
      cases result <;> exact nofun

/-- A run ends with the status for invalid input exactly if its settings are refused. -/
theorem runFetch_eq_invalid_iff (hoptions : options.Accepted)
    (h : Prepared settings options (prepare settings options)) :
    (runFetch world threshold settings options memory state).1.1 = .exited statusInvalid ↔
      ∃ reason, prepare settings options = .ok (.error reason) := by
  constructor
  · intro hstatus
    generalize hprepare : prepare settings options = outcome at h ⊢
    cases h with
    | limit => exact ⟨_, rfl⟩
    | pause => exact ⟨_, rfl⟩
    | ready =>
        exact absurd hstatus (runFetch_ne_of_setup world threshold memory state hoptions hprepare)
  · rintro ⟨reason, hreason⟩
    exact runFetch_of_error world threshold memory state
      (obtainSeries_of_refused world threshold memory state hreason)

end Status

/-- What the checks before a fetch guarantee for some settings and options. -/
structure Checked (settings : Settings) (options : Options) : Prop where
  range : options.range.start < options.range.stop
  maxRecords : 1 ≤ options.maxRecords
  symbol : options.symbol ≠ "" ∧ Request.normalSymbol options.symbol = options.symbol
  instrument : options.outputFormat = .value .barter →
    ∃ index, options.instrumentIndex = some (.value index) ∧ 0 ≤ index
  /-- The program ends with the status for invalid input exactly if a setting is refused. -/
  invalid_iff : ∀ {σ : Type} (world : World (StateM σ)) (threshold : Nat) (memory : Memory)
    (state : σ), (runFetch world threshold settings options memory state).1.1 =
      .exited statusInvalid ↔ settings.pageLimit < 1 ∨ settings.spacingMillis < 0
  /-- If a setting is refused, nothing is sent and nothing is printed. -/
  quiet : settings.pageLimit < 1 ∨ settings.spacingMillis < 0 →
    ∀ {σ : Type} (world : World (StateM σ)) (threshold : Nat) (memory : Memory) (state : σ)
      (done : List Deed),
      (runFetch world.watched threshold settings options memory (state, done)).2.2 = done
  /-- A request is refused for a limit below one only. -/
  refused : ∀ reason, prepare settings options = .ok (.error (.request reason)) →
    settings.pageLimit < 1 ∧ reason = .limitOutOfRange (.integer settings.pageLimit)
  /-- A fetch that begins meets the bounds of its plan and of its series. -/
  bounds : ∀ setup, prepare settings options = .ok (.ok setup) →
    setup.request.symbol = options.symbol ∧
      Succeeds (Plan.make options.range setup.request.interval setup.request.limit) ∧
      Succeeds (Series.make Candle options.maxRecords)

/-- Whatever the arguments of the command line and the settings are, the options that are read from
the arguments and the checks of the settings are enough for a run. The pause between calls must fit
a double. -/
theorem checked_of_read {arguments : List String} {options : Options} {settings : Settings}
    (hread : Options.read arguments = .options options) (hfits : ¬ PauseTooLong settings) :
    Checked settings options := by
  have hoptions := Options.accepted_of_read hread
  have hnormal := Options.normalSymbol_of_read hread
  have hsymbol := Request.readSymbol_of_normal hnormal hoptions.symbol
  have hprepared := prepared_of_fits hsymbol hfits
  constructor
  case range =>
    have horder := options.range.start_le_stop
    have hnonempty : options.range.start ≠ options.range.stop := by
      simpa [DateRange.isEmpty] using hoptions.range
    omega
  case maxRecords => exact hoptions.maxRecords
  case symbol => exact ⟨by simpa using hoptions.symbol, hnormal⟩
  case instrument =>
    intro hevents
    obtain ⟨index, hindex, hnonneg, -⟩ := hoptions.instrument hevents
    exact ⟨index, hindex, hnonneg⟩
  case invalid_iff =>
    intro σ world threshold memory state
    rw [← hprepared.refused_iff]
    exact runFetch_eq_invalid_iff world threshold memory state hoptions hprepared
  case quiet =>
    intro h σ world threshold memory state done
    obtain ⟨reason, hreason⟩ := hprepared.refused_iff.mpr h
    exact runFetch_watched world threshold done hreason memory state
  case refused =>
    intro reason hreason
    rw [hreason] at hprepared
    cases hprepared with
    | limit hlimit => exact ⟨hlimit, rfl⟩
  case bounds =>
    intro setup hsetup
    obtain ⟨plan, hplan, -⟩ := Plan.make_isOk options.range setup.request.interval
      setup.request.one_le_limit
    obtain ⟨series, hseries, -⟩ := Series.make_isOk Candle hoptions.maxRecords
    rw [hsetup] at hprepared
    cases hprepared with
    | ready _ _ _ hsame => exact ⟨hsame, ⟨plan, hplan⟩, ⟨series, hseries⟩⟩

/-- Options for the events of a day, with a symbol that upper case has made longer. -/
def germanStreet : Options :=
  { oneDay with
    symbol := "STRASSE"
    maxRecords := 2
    outputFormat := .value .barter
    instrumentIndex := some (.value 7) }

theorem checked_of_read_germanStreet :
    let settings : Settings := { pageLimit := 1001, spacingMillis := -1 }
    let ran := runFetch (World.answering lateBar).watched Level.info.rank settings germanStreet
      { client := .make "" .zero } ((), [])
    Checked settings germanStreet ∧ ran.1.1 = .exited statusInvalid ∧ ran.2.2 = [] := by
  have hread : Options.read ["--start-date", "2024/01/01", "--end-date", "2024/01/02", "--symbol",
      " straße\t", "--max-records", "2", "--output-format", "barter", "--instrument-index", "7"] =
      .options germanStreet := CommandLine.Outcome.eq_options (by decide +kernel)
  have hfits : ¬ PauseTooLong { pageLimit := 1001, spacingMillis := -1 } := by
    rintro ⟨negative, hinfinite⟩
    revert hinfinite
    cases negative <;> decide +kernel
  have hchecked := checked_of_read hread hfits
  have hpause : (1001 : Int) < 1 ∨ (-1 : Int) < 0 := .inr (by decide)
  exact ⟨hchecked, (hchecked.invalid_iff _ _ _ _).mpr hpause, hchecked.quiet hpause _ _ _ _ _⟩

end Program

end CandleHistory
