import CandleHistory.Settings.Environment
import CandleHistory.Text.Uppercase

/-!
The settings of the program, as the environment gives them. A variable that is not set has a
default; one that should be a number and is not is refused by name.
-/

namespace CandleHistory

open Number (Binary64)

/-- The settings of the program. -/
structure Settings where
  testnet : Bool := false
  /-- The address of the exchange, if it is not one of the usual two; empty otherwise. -/
  addressOverride : String := ""
  /-- The time that a request may take, in seconds. -/
  timeout : Binary64 := .ofInt 10
  /-- The most bars for one call. -/
  pageLimit : Int := 1000
  /-- The time from one call to the next, in milliseconds. -/
  spacingMillis : Int := 100
  maxRetries : Int := 3
  /-- The word for the log level. -/
  logLevel : String := "INFO"
  deriving Repr

namespace Settings

/-- The usual address of the exchange. -/
def mainnetAddress : String := "https://api.bybit.com"

/-- The address of the exchange for tests. -/
def testnetAddress : String := "https://api-testnet.bybit.com"

/-- The names of the variables that settings are read from. -/
def variableNames : List String :=
  ["BYBIT_TESTNET", "BYBIT_BASE_URL", "KLINE_REQUEST_TIMEOUT_SEC", "KLINE_PER_CALL_LIMIT",
    "KLINE_REQUEST_SPACING_MS", "KLINE_MAX_RETRIES", "LOG_LEVEL"]

/-- The address that requests go to. -/
def address (settings : Settings) : String :=
  if settings.addressOverride.isEmpty then
    if settings.testnet then testnetAddress else mainnetAddress
  else settings.addressOverride

/-- Lets a pause pass that fits a double. -/
def fittingPause : Binary64 → Except Fault Binary64
  | .infinite _ => .error .spacingTooLong
  | seconds => .ok seconds

/-- The time from one call to the next, in seconds. -/
def spacing (settings : Settings) : Except Fault Binary64 :=
  fittingPause (Binary64.ofIntRatio settings.spacingMillis 1000)

/-- Reads a variable as a number; if it is not set, the default holds. -/
def number {α : Type} (read? : String → Option α) (environment : Environment)
    (name : String) (default : α) : Except InputError α :=
  match Environment.lookup environment name with
  | none => .ok default
  | some text =>
    match read? text with
    | some value => .ok value
    | none => .error (.settingNotNumber name text)

/-- The settings that an environment gives. -/
def ofEnvironment (environment : Environment) : Except InputError Settings := do
  let defaults : Settings := { }
  let text (name default : String) := (Environment.lookup environment name).getD default
  let timeout ←
    number Number.readReal? environment "KLINE_REQUEST_TIMEOUT_SEC" defaults.timeout
  let pageLimit ←
    number Number.readInteger? environment "KLINE_PER_CALL_LIMIT" defaults.pageLimit
  let spacingMillis ←
    number Number.readInteger? environment "KLINE_REQUEST_SPACING_MS" defaults.spacingMillis
  let maxRetries ←
    number Number.readInteger? environment "KLINE_MAX_RETRIES" defaults.maxRetries
  return {
    testnet := Text.lowerLatin (text "BYBIT_TESTNET" "false") == "true"
    addressOverride := text "BYBIT_BASE_URL" defaults.addressOverride
    timeout, pageLimit, spacingMillis, maxRetries
    logLevel := text "LOG_LEVEL" defaults.logLevel }

end Settings

end CandleHistory
