import CandleHistory.Program.Gateway
import CandleHistory.Program.Run
import Std.Time.DateTime

/-!
The command line. Requests are handed to a gateway to the network: each one is written to the
standard error output as a line that begins with `request`, and its reply is read as a line from
the standard input. The variables of the environment come before those of the file `.env`, which
must be a plain one.
-/

namespace CandleHistory

open Calendar (Instant UtcTime)
open Number (Binary64)

/-- The present instant. -/
def presentInstant : IO Instant := do
  let stamp ← Std.Time.Timestamp.now
  return ⟨stamp.toMillisecondsSinceUnixEpoch.val * 1000⟩

/-- The present time in UTC. -/
def presentTime : IO UtcTime := do
  let t ← presentInstant
  let s := t.secondOfDay
  match UtcTime.ofWall {
    date := t.date
    hour := s / 3600, minute := s / 60 % 60, second := s % 60
    microsecond := t.microsecond
    offset := some 0 } with
  | .ok time => return time
  | .error reason => throw (IO.userError (Fault.message (.time reason)))

/-- Sleeps for a number of seconds, rounded up to whole milliseconds. -/
def sleepSeconds (seconds : Binary64) : IO Unit := do
  let millis := ((seconds * .ofInt 1000).truncate?).getD 0
  IO.sleep (millis.toNat + 1).toUInt32

/-- Hands a request to the gateway and waits for its reply. -/
def sendToGateway (request : HttpRequest) : IO Program.Sent := do
  let errors ← IO.getStderr
  let document := Json.write? (Program.Gateway.requestDocument request)
  errors.putStrLn ("request " ++ document.getD "")
  errors.flush
  return Program.Gateway.readSent (← (← IO.getStdin).getLine)

/-- Writes a log line with the present time in front of it. -/
def writeLogLine (line : String) : IO Unit := do
  (← IO.getStderr).putStrLn ((← presentInstant).civilText ++ " | " ++ line)

/-- The terminal and the network. -/
def terminal : Program.World IO where
  now := do return Binary64.ofIntRatio (← IO.monoMsNow) 1000
  sleep := sleepSeconds
  send := sendToGateway
  wallTime := presentTime
  print text := do (← IO.getStdout).putStr text
  complain text := do (← IO.getStderr).putStr text
  logLine := writeLogLine

/-- The variables of the environment that matter for the settings. -/
def presentEnvironment : IO Environment :=
  Settings.variableNames.filterMapM fun name => do
    return (← IO.getEnv name).map (name, ·)

/-- The text of the file of variables; a file that cannot be read is an empty one. -/
def readVariableFile : IO String := do
  try IO.FS.readFile ".env" catch _ => return ""

end CandleHistory

open CandleHistory in
/-- Runs the program with the arguments of the command line. -/
def main (arguments : List String) : IO UInt32 := do
  let file ← readVariableFile
  let environment ← presentEnvironment
  let finished ← Program.run terminal .plain environment file arguments
  match finished.ending with
  | .exited status => return status.toUInt32
  | .crashed fault =>
    (← IO.getStderr).putStrLn fault.message
    return 1
