import CandleHistory.CommandLine.Arguments

/-!
What the program says about its own use.
-/

namespace CandleHistory.CommandLine

/-- The name of the program. -/
def programName : String := "bybit-kline"

/-- The lines that show the flags in brief. -/
def usageLines : List String :=
  [s!"usage: {programName} [-h] [-s SYMBOL] [-i INTERVAL] [-c CATEGORY] --start-date",
    "                   START_DATE --end-date END_DATE [-m MAX_RECORDS]",
    "                   [--output-format \x7btable,barter\x7d]",
    "                   [--instrument-index INSTRUMENT_INDEX] [--testnet]",
    "                   [--log-level LOG_LEVEL]"]

/-- The lines that explain the flags. -/
def flagLines : List String :=
  ["options:",
    "  -h, --help            show this help message and exit",
    "  -s SYMBOL, --symbol SYMBOL",
    "                        Symbol to fetch (e.g., BTCUSDT)",
    "  -i INTERVAL, --interval INTERVAL",
    "                        Kline interval: 1, 3, 5, 15, 30, 60, 120, 240, 360,",
    "                        720, D, W, M",
    "  -c CATEGORY, --category CATEGORY",
    "                        Category: spot, linear, inverse",
    "  --start-date START_DATE",
    "                        Start date in YYYY/MM/DD format",
    "  --end-date END_DATE   End date in YYYY/MM/DD format (exclusive)",
    "  -m MAX_RECORDS, --max-records MAX_RECORDS",
    "                        Maximum number of records to fetch (pagination is",
    "                        automatic)",
    "  --output-format \x7btable,barter\x7d",
    "                        'table' or 'barter' (JSON lines for barter",
    "                        backtesting)",
    "  --instrument-index INSTRUMENT_INDEX",
    "                        Instrument index, required for barter",
    "  --testnet             Use testnet instead of mainnet",
    "  --log-level LOG_LEVEL",
    "                        Override LOG_LEVEL (DEBUG, INFO, WARNING...)"]

/-- Lines as a text, each with its end. -/
def ofLines (lines : List String) : String := String.join (lines.map (· ++ "\n"))

/-- The flags in brief. -/
def usage : String := ofLines usageLines

/-- The full help. -/
def help : String :=
  ofLines (usageLines ++
    ["", "Fetch historical Bybit klines over a date range with automatic pagination.", ""] ++
      flagLines)

/-- The last line that is written about arguments that cannot be used. -/
def UsageError.line (error : UsageError) : String := s!"{programName}: error: {error.message}\n"

end CandleHistory.CommandLine
