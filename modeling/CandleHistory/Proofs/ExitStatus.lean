import CandleHistory.Proofs.AcceptedDates
import CandleHistory.Proofs.EmptyFlags
import CandleHistory.Proofs.FetchMishaps

/-!
How the program ends. If the exchange serves every call, then whatever is in the environment and on
the command line, the program ends with one of four statuses, unless one of seven mishaps breaks it
off.
-/

namespace CandleHistory.Program

open CommandLine (Options)

variable {σ : Type}

/-- A word for a log level that names something else: a text, or a table. -/
def NamesNoLevel (word : String) : Prop :=
  Text.upper word = "BASIC_FORMAT" ∨ Text.upper word = "_STYLES"

theorem threshold_succeeds_iff (word : String) :
    Succeeds (threshold word) ↔ ¬ NamesNoLevel word := by
  unfold threshold NamesNoLevel
  generalize Text.upper word = upper
  split
  case h_9 => simp [Succeeds]
  case h_10 => simp [Succeeds]
  case h_11 hformat hstyles =>
    refine ⟨fun _ => ?_, fun _ => Succeeds.ok _⟩
    rintro (rfl | rfl)
    · exact hformat rfl
    · exact hstyles rfl
  all_goals simp [Succeeds]

theorem chooseLevel_succeeds_iff (level : Nat) (options : Options) :
    Succeeds (chooseLevel level options) ↔ ¬ NamesNoLevel (levelWord options) := by
  unfold chooseLevel
  split
  case isTrue hempty =>
    rw [String.isEmpty_iff] at hempty
    rw [hempty]
    refine ⟨fun _ => ?_, fun _ => Succeeds.ok _⟩
    unfold NamesNoLevel
    decide +kernel
  case isFalse => exact threshold_succeeds_iff _

/-- The settings that the environment and a file of variables come to. -/
def Configured (loader : FileLoader) (environment : Environment) (file : String)
    (settings : Settings) : Prop :=
  ∃ loaded, loader.load environment file = .ok loaded ∧
    Settings.ofEnvironment loaded = .ok settings

/-- What a run has come to when it begins to fetch. -/
structure Reaches (loader : FileLoader) (environment : Environment) (file : String)
    (arguments : List String) (settings : Settings) (options : Options) (level : Nat) : Prop where
  configured : Configured loader environment file settings
  accepted : Options.read arguments = .options options
  level : ∃ usual, threshold settings.logLevel = .ok usual ∧ chooseLevel usual options = .ok level

/-- The memory of a run when it begins to fetch. -/
def Memory.initial (settings : Settings) : Memory :=
  { client := .make settings.address settings.timeout }

theorem Memory.cancelRequested_initial (settings : Settings) :
    (Memory.initial settings).cancelRequested = false := rfl

/-- The state of the world after the complaints about a file of variables. -/
def complained (world : World (StateM σ)) (loader : FileLoader) (environment : Environment)
    (file : String) (state : σ) : σ :=
  ((loader.complaints environment file).forM
    (fun complaint => world.complain (complaint ++ "\n")) state).2

/-- What breaks the program off: a file of variables that cannot be loaded, a word for the log level
that names something else, among the settings or the options, a flag without the text or the number
that it needs, or a mishap of the fetch. -/
inductive Mishap (world : World (StateM σ)) (loader : FileLoader) (environment : Environment)
    (file : String) (arguments : List String) (state : σ) : Prop
  | unloadable {fault : Fault} :
      loader.load environment file = .error fault → fault ≠ .interrupted →
      Mishap world loader environment file arguments state
  | level {settings : Settings} :
      Configured loader environment file settings → NamesNoLevel settings.logLevel →
      Mishap world loader environment file arguments state
  | flag {settings : Settings} {given : CommandLine.Arguments} :
      Configured loader environment file settings →
      CommandLine.Arguments.read arguments = .ok (.arguments given) → Options.Hollow given →
      Mishap world loader environment file arguments state
  | flagLevel {settings : Settings} {options : Options} :
      Configured loader environment file settings → Options.read arguments = .options options →
      NamesNoLevel (levelWord options) → Mishap world loader environment file arguments state
  | fetch {settings : Settings} {options : Options} {level : Nat} :
      Reaches loader environment file arguments settings options level →
      FetchMishap world level (withFlags settings options) options
        (.initial (withFlags settings options)) (complained world loader environment file state) →
      Mishap world loader environment file arguments state

section Run

variable {world : World (StateM σ)} {loader : FileLoader} {environment : Environment}
  {file : String} {arguments : List String} {state : σ} {settings : Settings} {options : Options}
  {level : Nat}

theorem run_of_configured (h : Configured loader environment file settings) :
    run world loader environment file arguments state =
      runArguments world settings arguments (complained world loader environment file state) := by
  obtain ⟨loaded, hload, hsettings⟩ := h
  unfold run
  rw [hload]
  dsimp only
  rw [hsettings]
  rfl

theorem runOptions_of_level {usual : Nat} (h : chooseLevel usual options = .ok level) (before : σ) :
    ∃ after, (runOptions world usual settings options before).1.ending =
      (Ending.settle world level (runFetch world level (withFlags settings options) options
        (.initial (withFlags settings options)) before).1.1 after).1 := by
  unfold runOptions Memory.initial
  rw [h]
  dsimp only [StateT.run]
  -- Only what the fetch hands on matters here, so it is kept closed.
  generalize runFetch world level (withFlags settings options) options
    { client := .make (withFlags settings options).address (withFlags settings options).timeout } =
      fetched
  exact ⟨(fetched before).2, rfl⟩

theorem run_of_reaches (world : World (StateM σ)) (state : σ)
    (h : Reaches loader environment file arguments settings options level) :
    ∃ after, (run world loader environment file arguments state).1.ending =
      (Ending.settle world level (runFetch world level (withFlags settings options) options
        (.initial (withFlags settings options))
          (complained world loader environment file state)).1.1 after).1 := by
  obtain ⟨hconfigured, hoptions, usual, husual, hlevel⟩ := h
  rw [run_of_configured hconfigured]
  unfold runArguments
  rw [husual]
  dsimp only
  rw [hoptions]
  exact runOptions_of_level hlevel _

/-- A mishap breaks the program off. -/
theorem Mishap.not_isDocumented (hserves : world.Serves)
    (h : Mishap world loader environment file arguments state) :
    ¬ (run world loader environment file arguments state).1.ending.IsDocumented := by
  cases h with
  | @unloadable fault hload hfault =>
      have hbroken : Ending.IsBroken (.crashed fault) := .crashed hfault
      unfold run
      rw [hload]
      exact (hbroken.settle world Level.warning.rank _).not_isDocumented
  | @level settings hconfigured hword =>
      rw [run_of_configured hconfigured]
      unfold runArguments
      cases hlevel : threshold settings.logLevel with
      | error fault => exact nofun
      | ok level => exact absurd hword ((threshold_succeeds_iff _).mp ⟨level, hlevel⟩)
  | @flag settings given hconfigured hgiven hhollow =>
      obtain ⟨fault, hflag⟩ := (Options.read_breaks_iff arguments).mpr ⟨given, hgiven, hhollow⟩
      rw [run_of_configured hconfigured]
      unfold runArguments
      rw [hflag]
      cases threshold settings.logLevel with
      | error fault => exact nofun
      | ok level => exact nofun
  | @flagLevel settings options hconfigured hoptions hword =>
      rw [run_of_configured hconfigured]
      unfold runArguments
      rw [hoptions]
      cases threshold settings.logLevel with
      | error fault => exact nofun
      | ok usual =>
          dsimp only
          unfold runOptions
          cases hlevel : chooseLevel usual options with
          | error fault => exact nofun
          | ok level =>
              have hsucceeds : Succeeds (chooseLevel usual options) := ⟨level, hlevel⟩
              exact absurd hword ((chooseLevel_succeeds_iff usual options).mp hsucceeds)
  | @fetch settings options level hreaches hmishap =>
      obtain ⟨after, hending⟩ := run_of_reaches world state hreaches
      have hoptions := Options.accepted_of_read hreaches.accepted
      have hrange := Options.inCalendar_of_read hreaches.accepted
      rw [hending]
      rcases runFetch_cases hserves hoptions hrange (Memory.cancelRequested_initial _) with
        ⟨-, hbroken⟩ | ⟨hfree, -⟩
      · exact (hbroken.settle world level after).not_isDocumented
      · exact absurd hmishap hfree

section Documented

variable (hserves : world.Serves)
  (hfree : ¬ Mishap world loader environment file arguments state)

include hserves hfree

theorem isDocumented_of_reaches
    (hreaches : Reaches loader environment file arguments settings options level) :
    (run world loader environment file arguments state).1.ending.IsDocumented := by
  obtain ⟨after, hending⟩ := run_of_reaches world state hreaches
  have hoptions := Options.accepted_of_read hreaches.accepted
  have hrange := Options.inCalendar_of_read hreaches.accepted
  rw [hending]
  rcases runFetch_cases hserves hoptions hrange (Memory.cancelRequested_initial _) with
    ⟨hmishap, -⟩ | ⟨-, hdocumented⟩
  · exact absurd (.fetch hreaches hmishap) hfree
  · exact hdocumented.settle world level after

theorem isDocumented_of_options (hconfigured : Configured loader environment file settings)
    (hread : Options.read arguments = .options options) {usual : Nat}
    (husual : threshold settings.logLevel = .ok usual) :
    (run world loader environment file arguments state).1.ending.IsDocumented := by
  cases hlevel : chooseLevel usual options with
  | error fault =>
      have hword := Succeeds.not_of_error hlevel
      rw [chooseLevel_succeeds_iff, not_not] at hword
      exact absurd (.flagLevel hconfigured hread hword) hfree
  | ok level =>
      exact isDocumented_of_reaches hserves hfree
        ⟨hconfigured, hread, usual, husual, hlevel⟩

theorem isDocumented_of_configured (hconfigured : Configured loader environment file settings) :
    (run world loader environment file arguments state).1.ending.IsDocumented := by
  cases husual : threshold settings.logLevel with
  | error fault =>
      have hword := Succeeds.not_of_error husual
      rw [threshold_succeeds_iff, not_not] at hword
      exact absurd (.level hconfigured hword) hfree
  | ok usual =>
      have hrun : run world loader environment file arguments state =
          runArguments world settings arguments (complained world loader environment file state) :=
        run_of_configured hconfigured
      unfold runArguments at hrun
      rw [husual] at hrun
      dsimp only at hrun
      rcases hread : Options.read arguments with options | - | reason | (reason | fault)
      · exact isDocumented_of_options hserves hfree hconfigured hread husual
      · rw [hrun, hread]
        exact .exited (by simp [documentedStatuses])
      · rw [hrun, hread]
        exact .exited (by simp [documentedStatuses])
      · rw [hrun, hread]
        exact .exited (by simp [documentedStatuses])
      · obtain ⟨given, hgiven, hhollow⟩ := (Options.read_breaks_iff arguments).mp ⟨fault, hread⟩
        exact absurd (.flag hconfigured hgiven hhollow) hfree

/-- Without a mishap the program ends with a documented status. -/
theorem isDocumented_of_not_mishap :
    (run world loader environment file arguments state).1.ending.IsDocumented := by
  cases hload : loader.load environment file with
  | error fault =>
      have hinterrupted : fault = .interrupted := by
        by_contra hfault
        exact hfree (.unloadable hload hfault)
      unfold run
      rw [hload, hinterrupted]
      exact .exited (by simp [documentedStatuses])
  | ok loaded =>
      cases hsettings : Settings.ofEnvironment loaded with
      | error reason =>
          unfold run
          rw [hload]
          dsimp only
          rw [hsettings]
          exact .exited (by simp [documentedStatuses])
      | ok settings =>
          exact isDocumented_of_configured hserves hfree ⟨loaded, hload, hsettings⟩

end Documented

end Run

/-- At an exchange that serves every call, the program ends with a documented status if there is no
mishap, and only then. -/
theorem run_isDocumented_iff {world : World (StateM σ)} (hserves : world.Serves)
    (loader : FileLoader) (environment : Environment) (file : String) (arguments : List String)
    (state : σ) :
    (run world loader environment file arguments state).1.ending.IsDocumented ↔
      ¬ Mishap world loader environment file arguments state := by
  constructor
  · intro hdocumented hmishap
    exact hmishap.not_isDocumented hserves hdocumented
  · exact isDocumented_of_not_mishap hserves

/-- A reply without bars. -/
def noBars : Value :=
  .object [("retCode", .integer 0), ("result", .object [("list", .list [])])]

theorem answering_noBars_serves : (World.answering noBars).Serves := by
  intro client call state
  have hreply : ((World.answering noBars).send (client.request (query call)) state).1.reply =
      .response 200 (.decoded noBars) := rfl
  have hresult : (Reply.response 200 (.decoded noBars)).read.result = .page (.list []) := rfl
  have hrows : Row.readAll call.interval [] = .ok [] := rfl
  rw [hreply, hresult]
  exact .rows rfl hrows (List.forall_mem_nil _)

/-- A word in the environment that names a text and no level breaks the program off. -/
theorem run_isDocumented_iff_wordForText :
    ¬ (run (World.answering noBars) .plain [("LOG_LEVEL", "basic_format")] ""
      ["--start-date", "2024/01/01", "--end-date", "2024/01/02"] ()).1.ending.IsDocumented := by
  have hload : FileLoader.plain.load [("LOG_LEVEL", "basic_format")] "" =
      .ok [("LOG_LEVEL", "basic_format")] := rfl
  have hlevel : (Settings.ofEnvironment [("LOG_LEVEL", "basic_format")]).toOption.map
      Settings.logLevel = some "basic_format" := by decide +kernel
  rw [run_isDocumented_iff answering_noBars_serves, not_not]
  cases hsettings : Settings.ofEnvironment [("LOG_LEVEL", "basic_format")] with
  | error reason =>
      rw [hsettings] at hlevel
      cases hlevel
  | ok settings =>
      rw [hsettings] at hlevel
      have hword : settings.logLevel = "basic_format" := Option.some.inj hlevel
      refine .level ⟨_, hload, hsettings⟩ (Or.inl ?_)
      rw [hword]
      decide +kernel

end CandleHistory.Program
