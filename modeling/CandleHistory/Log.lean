/-!
Log records: what the parts of the program report about their work, apart from their results.
-/

namespace CandleHistory

/-- How much a log record matters. -/
inductive Level where
  | debug
  | info
  | warning
  | error
  deriving DecidableEq, Inhabited, Repr

namespace Level

/-- The rank of a level; a record is shown if its rank reaches the threshold. -/
def rank : Level → Nat
  | debug => 10
  | info => 20
  | warning => 30
  | error => 40

/-- The name of a level. -/
def name : Level → String
  | debug => "DEBUG"
  | info => "INFO"
  | warning => "WARNING"
  | error => "ERROR"

end Level

/-- The part of the program that writes a log record. -/
inductive Source where
  /-- The paging loop. -/
  | fetch
  /-- The split of a range into chunks. -/
  | plan
  /-- The merging of pages into a series. -/
  | series
  /-- The pauses between requests. -/
  | spacing
  /-- The client of the exchange. -/
  | client
  /-- The writers of reports. -/
  | report
  /-- The program as a whole. -/
  | program
  deriving DecidableEq, Inhabited, Repr

/-- A log record. -/
structure LogRecord where
  level : Level
  source : Source
  message : String
  deriving DecidableEq, Inhabited, Repr

namespace LogRecord

/-- The line that a record is shown as, after its time. -/
def line (record : LogRecord) : String :=
  let name := record.level.name
  name ++ String.ofList (List.replicate (7 - name.length) ' ') ++ " | " ++ record.message

end LogRecord

end CandleHistory
