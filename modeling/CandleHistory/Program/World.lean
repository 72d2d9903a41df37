import CandleHistory.Exchange.Client
import CandleHistory.Paging.Fetch

/-!
The world that the program runs in, and what it keeps in mind while it runs: its client and
whether someone wishes to cancel. The world may be any monad, so that the program can run against
a terminal and a network, or against a script.
-/

namespace CandleHistory.Program

open Calendar (UtcTime)
open Number (Binary64)

/-- What a request comes to, and whether someone wished to cancel while it was under way. -/
structure Sent where
  reply : Reply
  cancelRequested : Bool := false
  deriving Repr

/-- The world that the program runs in. -/
structure World (m : Type → Type) where
  /-- The seconds on a clock that never goes backwards. -/
  now : m Binary64
  sleep : Binary64 → m Unit
  send : HttpRequest → m Sent
  /-- The date and the time of day in UTC. -/
  wallTime : m UtcTime
  /-- Writes to the standard output. -/
  print : String → m Unit
  /-- Writes to the standard error output. -/
  complain : String → m Unit
  /-- Writes a log line to the standard error output, with the time in front of it. -/
  logLine : String → m Unit

/-- How the program ends: with a status, or by a fault that nothing handles. -/
inductive Ending where
  | exited (status : Nat)
  | crashed (fault : Fault)
  deriving Repr

/-- The status after a complete output. -/
def statusOk : Nat := 0

/-- The status after a fetch that was aborted. -/
def statusAborted : Nat := 1

/-- The status after input that cannot be used. -/
def statusInvalid : Nat := 2

/-- The status after a fetch that was cancelled. -/
def statusCancelled : Nat := 130

/-- The least rank of the log records that are shown, for the word that names it. Words in any
case are known; an unknown word stands for `INFO`. Two words name other things than a rank. -/
def threshold (word : String) : Except Fault Nat :=
  match Text.upper word with
  | "CRITICAL" => .ok 50
  | "FATAL" => .ok 50
  | "ERROR" => .ok Level.error.rank
  | "WARNING" => .ok Level.warning.rank
  | "WARN" => .ok Level.warning.rank
  | "INFO" => .ok Level.info.rank
  | "DEBUG" => .ok Level.debug.rank
  | "NOTSET" => .ok 0
  | "BASIC_FORMAT" => .error .unknownLevel
  | "_STYLES" => .error .levelNotNumber
  | _ => .ok Level.info.rank

/-- What the program keeps in mind. -/
structure Memory where
  client : Client
  cancelRequested : Bool := false
  deriving Repr

variable {m : Type → Type} [Monad m]

/-- Shows a log record if its rank reaches the threshold. -/
def World.log (world : World m) (threshold : Nat) (record : LogRecord) : m Unit :=
  if threshold ≤ record.level.rank then world.logLine record.line else pure ()

/-- Shows a log record of the program itself. -/
def World.say (world : World m) (threshold : Nat) (level : Level) (message : String) : m Unit :=
  world.log threshold ⟨level, .program, message⟩

/-- The exchange's words for a call. -/
def query (call : PageCall) : KlineQuery :=
  { symbol := call.symbol
    interval := call.interval.code
    category := call.category.code
    start := call.start
    last := call.last
    limit := call.limit }

/-- Sees to it that the client has an open session. -/
def openSession : StateT Memory m Unit :=
  modify fun memory => { memory with client := memory.client.ensureOpen }

/-- Makes a call on the newest session, whatever state it is in, and reads the reply. A wish to
cancel that comes up meanwhile is kept in mind. -/
def sendCall (world : World m) (threshold : Nat) (call : PageCall) :
    StateT Memory m PageAnswer := do
  let memory ← get
  let sent ← world.send (memory.client.request (query call))
  if sent.cancelRequested then
    world.say threshold .info
      "[SHUTDOWN] Cancel requested. Stopping after the current chunk..."
    modify fun memory => { memory with cancelRequested := true }
  let reading := sent.reply.read
  reading.log.forM fun record => liftM (world.log threshold record)
  return reading.result

/-- Makes a call on an open session. -/
def callPage (world : World m) (threshold : Nat) (call : PageCall) :
    StateT Memory m PageAnswer := do
  openSession
  sendCall world threshold call

/-- Reports the number of records that are held, at a given level. -/
def reportCount (world : World m) (threshold : Nat) (level : Level) (held : Nat) :
    m (Option String) := do
  world.say threshold level s!"[FETCH] Total records so far: {held}"
  return none

/-- The exchange as a fetch sees it. -/
def venue (world : World m) (threshold : Nat) (progressLevel : Level) :
    Venue Binary64 (StateT Memory m) where
  now := world.now
  sleep seconds := world.sleep seconds
  log record := world.log threshold record
  call := callPage world threshold
  cancelRequested := do return (← get).cancelRequested
  report held := liftM <| reportCount world threshold progressLevel held

end CandleHistory.Program
