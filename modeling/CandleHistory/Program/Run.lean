import CandleHistory.CommandLine.Options
import CandleHistory.Program.World
import CandleHistory.Report.MarketEvent
import CandleHistory.Report.Table
import CandleHistory.Settings.Settings

/-!
The program as a whole: settings, options, one fetch, and the output. Output is written only after
a complete fetch. Whatever happens, the program ends with a status, or by a fault that nothing
handles, and the client's sessions are closed.
-/

namespace CandleHistory.Program

open CommandLine (Given Options OutputFormat)
open Number (Binary64)

variable {m : Type → Type} [Monad m]

/-- The lines that open a run. -/
def banner (settings : Settings) (options : Options) : List String :=
  ["Fetching Bybit Kline Data",
    s!"Symbol: {options.symbol}",
    s!"Interval: {options.interval.code}",
    s!"Category: {options.category.code}",
    s!"Start Date: {options.startDate}",
    s!"End Date: {options.endDate}",
    s!"Max Records: {options.maxRecords}",
    "Using: " ++ if settings.testnet then "Testnet" else "Mainnet"]

/-- Whether events are to be written. -/
def writesEvents (options : Options) : Bool := options.outputFormat = .value .barter

/-- Writes a series in the form that the options ask for. -/
def render (world : World m) (options : Options) (candles : List Candle) : ExceptT Fault m Unit :=
  match options.outputFormat, options.instrumentIndex with
  | .value .barter, some (.value instrument) =>
    Report.MarketEvent.write world.wallTime world.print options.category instrument candles
  | _, _ => Report.Table.write world.print candles

/-- Ends a run that has written a series, or has failed to. -/
def endOutput (world : World m) (threshold : Nat) (options : Options) (candles : List Candle) :
    Except Fault Unit → m Ending
  | .error fault => return .crashed fault
  | .ok () => do
    if writesEvents options then
      world.log threshold ⟨.debug, .report, Report.MarketEvent.doneMessage candles⟩
    return .exited statusOk

/-- Writes a series to the standard output. -/
def output (world : World m) (threshold : Nat) (options : Options) (candles : List Candle) :
    m Ending := do
  let written ← (render world options candles).run
  endOutput world threshold options candles written

/-- Closes the client's session. -/
def closeClient : StateT Memory m Unit :=
  modify fun memory => { memory with client := memory.client.close }

/-- Why a fetch cannot begin. -/
inductive SetupError where
  | request (reason : InputError)
  | spacing (reason : BoundError)
  deriving Repr

/-- The reason why a fetch cannot begin, in words. -/
def SetupError.message : SetupError → String
  | request reason => reason.message
  | spacing reason => reason.message

/-- What a fetch begins with. -/
structure Setup where
  request : Request
  spacing : Spacing Binary64
  deriving Repr

/-- A request together with its spacing, unless the spacing is refused. -/
def Setup.make (request : Request) :
    Except BoundError (Spacing Binary64) → Except SetupError Setup
  | .error reason => .error (.spacing reason)
  | .ok spacing => .ok ⟨request, spacing⟩

/-- The request and the spacing that settings and options ask for. The limit of a call is cut down
to what the exchange allows. -/
def prepare (settings : Settings) (options : Options) :
    Except Fault (Except SetupError Setup) :=
  let limit := min settings.pageLimit largestPage
  match Request.make options.symbol options.interval options.category limit with
  | .error reason => .ok (.error (.request reason))
  | .ok request => settings.spacing.map fun gap => Setup.make request (Spacing.make gap)

/-- Tells how a fetch ended without a series, and with which status the program ends. -/
def endWithout (world : World m) (threshold : Nat) (stop : Stop) : m Ending := do
  let text := stop.message?.getD ""
  match stop with
  | .cancelled _ =>
    world.say threshold .error s!"[SHUTDOWN] {text}. No output written."
    return .exited statusCancelled
  | .aborted .. =>
    world.say threshold .error s!"[FETCH] {text}. No output written."
    return .exited statusAborted
  | .broke fault => return .crashed fault

/-- The level at which progress is reported. -/
def progressLevel (options : Options) : Level := if writesEvents options then .debug else .info

/-- What a fetch came to, after it is told how it ended if it gave no series. -/
def concludeFetch (world : World m) (threshold : Nat) :
    Except Stop (List Candle) → m (Except Ending (List Candle))
  | .ok candles => return .ok candles
  | .error stop => return .error (← endWithout world threshold stop)

/-- Fetches what the options ask for, and closes the client's session however that ends. -/
def fetchSeries (world : World m) (threshold : Nat) (settings : Settings) (options : Options)
    (setup : Setup) : StateT Memory m (Except Ending (List Candle)) := do
  let (answer, _) ← fetch (venue world threshold (progressLevel options)) settings.maxRetries
    setup.request options.range options.maxRecords setup.spacing
  let outcome ← liftM (concludeFetch world threshold answer)
  closeClient
  return outcome

/-- Shows the lines that open a run, unless events are to be written. -/
def showBanner (world : World m) (threshold : Nat) (settings : Settings) (options : Options) :
    m Unit :=
  if writesEvents options then pure ()
  else (banner settings options).forM fun line => world.say threshold .info line

/-- A run up to its output: the series that the options ask for, or how the run ends without it. -/
def obtainSeries (world : World m) (threshold : Nat) (settings : Settings) (options : Options) :
    StateT Memory m (Except Ending (List Candle)) := do
  liftM (showBanner world threshold settings options)
  match prepare settings options with
  | .error fault => return .error (.crashed fault)
  | .ok (.error reason) =>
    world.say threshold .error s!"[CONFIG] {reason.message}"
    closeClient
    return .error (.exited statusInvalid)
  | .ok (.ok setup) => fetchSeries world threshold settings options setup

/-- Runs one fetch with given settings and options, and writes the series if there is one. -/
def runFetch (world : World m) (threshold : Nat) (settings : Settings) (options : Options) :
    StateT Memory m Ending := do
  match ← obtainSeries world threshold settings options with
  | .ok candles => liftM (output world threshold options candles)
  | .error ending => return ending

/-- How a run ended, and the client that it used, if it came so far. -/
structure Finished where
  ending : Ending
  client? : Option Client := none
  deriving Repr

/-- An interruption ends the program in an orderly way; other faults do not. -/
def Ending.settle (world : World m) (threshold : Nat) (ending : Ending) : m Ending := do
  match ending with
  | .crashed .interrupted =>
    world.say threshold .info "KeyboardInterrupt received. No output written."
    return .exited statusCancelled
  | _ => return ending

/-- The settings with the flag for the test exchange taken into account. -/
def withFlags (settings : Settings) (options : Options) : Settings :=
  { settings with testnet := options.testnet || settings.testnet }

/-- The word for the log level among the options; it is empty if there is none. -/
def levelWord (options : Options) : String :=
  match options.logLevel with
  | some (.value word) => word
  | _ => ""

/-- The rank from which on log records are shown. The word for it among the options comes before
what the settings have come to, unless it is empty. -/
def chooseLevel (level : Nat) (options : Options) : Except Fault Nat :=
  if (levelWord options).isEmpty then .ok level else threshold (levelWord options)

/-- Runs with given settings and options. -/
def runOptions (world : World m) (level : Nat) (settings : Settings) (options : Options) :
    m Finished := do
  match chooseLevel level options with
  | .error fault => return { ending := .crashed fault }
  | .ok level =>
    let settings := withFlags settings options
    let client := Client.make settings.address settings.timeout
    let (ending, memory) ← (runFetch world level settings options).run { client }
    let ending ← ending.settle world level
    return { ending, client? := some memory.client }

/-- Runs with given settings and the arguments of the command line. -/
def runArguments (world : World m) (settings : Settings) (arguments : List String) :
    m Finished := do
  match threshold settings.logLevel with
  | .error fault => return { ending := .crashed fault }
  | .ok level =>
    match Options.read arguments with
    | .help =>
      world.print CommandLine.help
      return { ending := .exited statusOk }
    | .misused reason =>
      world.complain (CommandLine.usage ++ reason.line)
      return { ending := .exited statusInvalid }
    | .refused (.invalid reason) =>
      world.say level .error s!"[CLI] {reason.message}"
      return { ending := .exited statusInvalid }
    | .refused (.broke fault) => return { ending := .crashed fault }
    | .options options => runOptions world level settings options

/-- Runs the program with an environment, the text of a file of variables and a loader for it, and
the arguments of the command line. -/
def run (world : World m) (loader : FileLoader) (environment : Environment) (file : String)
    (arguments : List String) : m Finished := do
  (loader.complaints environment file).forM fun complaint => world.complain (complaint ++ "\n")
  match loader.load environment file with
  | .error fault =>
    -- Until the settings are there, only warnings and errors are shown.
    return { ending := ← Ending.settle world Level.warning.rank (.crashed fault) }
  | .ok environment =>
    match Settings.ofEnvironment environment with
    | .error reason =>
      world.say Level.info.rank .error s!"[CONFIG] {reason.message}"
      return { ending := .exited statusInvalid }
    | .ok settings => runArguments world settings arguments

end CandleHistory.Program
