import CandleHistory.CommandLine.Usage
import CandleHistory.Fault
import CandleHistory.Paging.DateRange
import CandleHistory.Paging.Request

/-!
The options of a run: arguments that make sense together. They are checked before any request is
made.
-/

namespace CandleHistory.CommandLine

/-- The options of a run. -/
structure Options where
  symbol : String
  interval : Interval
  category : Category
  range : DateRange
  /-- The dates as they were given. -/
  startDate : String
  endDate : String
  maxRecords : Int
  outputFormat : Given OutputFormat
  instrumentIndex : Option (Given Int)
  testnet : Bool
  logLevel : Option (Given String)
  deriving Repr

/-- Why arguments make no options. -/
inductive OptionsError where
  | invalid (reason : InputError)
  | broke (fault : Fault)
  deriving Repr

/-- How the arguments of the command line end the program or let it go on. -/
inductive Outcome where
  | options (options : Options)
  | help
  | misused (reason : UsageError)
  | refused (reason : OptionsError)
  deriving Repr

namespace Options

/-- The range between two dates, which must hold an instant. -/
def readRange (arguments : Arguments) : Except InputError DateRange := do
  let date (given : Option (Given String)) := (given.getD (.value "")).datum
  let range ← DateRange.ofDates (date arguments.startDate) (date arguments.endDate)
  if range.isEmpty then throw .startNotBeforeEnd else return range

/-- The cap on the records, which must be positive. -/
def readMaxRecords : Given Int → Except OptionsError Int
  | .value n => if n < 1 then .error (.invalid (.maxRecordsFlag n)) else .ok n
  | .nothing => .error (.broke .flagWithoutNumber)

/-- The symbol in its normal form, which must not be empty. -/
def readSymbol : Given String → Except OptionsError String
  | .value text =>
    let symbol := Request.normalSymbol text
    if symbol.isEmpty then .error (.invalid .emptySymbolFlag) else .ok symbol
  | .nothing => .error (.broke .flagWithoutText)

/-- An instrument is needed for events, and its index must not be negative. -/
def checkInstrument (arguments : Arguments) : Except OptionsError Unit :=
  match arguments.outputFormat, arguments.instrumentIndex with
  | .value .barter, none => .error (.invalid .instrumentIndexMissing)
  | .value .barter, some (.value index) =>
    if index < 0 then .error (.invalid (.instrumentIndexNegative index)) else .ok ()
  | .value .barter, some .nothing => .error (.broke .flagWithoutNumber)
  | _, _ => .ok ()

/-- The options that arguments stand for. -/
def ofArguments (arguments : Arguments) : Except OptionsError Options := do
  let text (given : Option (Given String)) := ((given.getD (.value "")).datum).display
  let interval ← (Interval.read arguments.interval.datum).mapError .invalid
  let category ← (Category.read arguments.category.datum).mapError .invalid
  let range ← (readRange arguments).mapError .invalid
  let maxRecords ← readMaxRecords arguments.maxRecords
  let symbol ← readSymbol arguments.symbol
  checkInstrument arguments
  return {
    symbol, interval, category, range, maxRecords
    startDate := text arguments.startDate
    endDate := text arguments.endDate
    outputFormat := arguments.outputFormat
    instrumentIndex := arguments.instrumentIndex
    testnet := arguments.testnet
    logLevel := arguments.logLevel }

/-- Reads the options from the arguments of the command line. -/
def read (given : List String) : Outcome :=
  match Arguments.read given with
  | .error reason => .misused reason
  | .ok .help => .help
  | .ok (.arguments arguments) =>
    match ofArguments arguments with
    | .ok options => .options options
    | .error reason => .refused reason

end Options

end CandleHistory.CommandLine
