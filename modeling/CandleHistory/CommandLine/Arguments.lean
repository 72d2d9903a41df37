import CandleHistory.CommandLine.Flag
import CandleHistory.Value

/-!
Reading the arguments of the command line. All arguments are recognised first; then the flags take
effect one after the other, so a wish for help counts even if something is missing. What is left
over at the end is refused.
-/

namespace CandleHistory.CommandLine

/-- The form in which a series is written. -/
inductive OutputFormat where
  | table
  | barter
  deriving DecidableEq, Inhabited, Repr

namespace OutputFormat

/-- All forms. -/
def all : List OutputFormat := [table, barter]

/-- The word for a form. -/
def code : OutputFormat → String
  | table => "table"
  | barter => "barter"

end OutputFormat

/-- What is given to a flag. -/
inductive Given (α : Type) where
  | value (value : α)
  /-- Two hyphens are attached to the flag; they stand for no value at all. -/
  | nothing
  deriving DecidableEq, Repr

namespace Given

/-- What is given, after a reading of the value. -/
def mapM {α β ε : Type} (read : α → Except ε β) : Given α → Except ε (Given β)
  | value given => (read given).map value
  | nothing => .ok nothing

/-- What is given, as a datum: nothing is an empty list. -/
def datum : Given String → Value
  | value text => .text text
  | nothing => .list []

/-- What an attached text gives. -/
def ofAttached (attached : List Char) : Given String :=
  if attached = ['-', '-'] then nothing else value (String.ofList attached)

end Given

/-- What was given to the flags, or their defaults. -/
structure Arguments where
  symbol : Given String := .value "BTCUSDT"
  interval : Given String := .value "15"
  category : Given String := .value "linear"
  startDate : Option (Given String) := none
  endDate : Option (Given String) := none
  maxRecords : Given Int := .value 1000
  outputFormat : Given OutputFormat := .value .table
  instrumentIndex : Option (Given Int) := none
  testnet : Bool := false
  logLevel : Option (Given String) := none
  deriving DecidableEq, Repr

/-- What reading the arguments comes to. -/
inductive Reading where
  | help
  | arguments (arguments : Arguments)
  deriving DecidableEq, Repr

namespace Arguments

/-- Reads the value of a flag as a whole number. -/
def readInteger (flag : Flag) (value : String) : Except UsageError Int :=
  match Number.readInteger? value with
  | some n => .ok n
  | none => .error (.notInteger flag value)

/-- Reads the value of a flag as the word for an output form. -/
def readFormat (flag : Flag) (value : String) : Except UsageError OutputFormat :=
  match OutputFormat.all.find? (·.code == value) with
  | some format => .ok format
  | none => .error (.notOffered flag value (OutputFormat.all.map OutputFormat.code))

/-- Lets a flag take what is given to it. The flags without a value are not concerned. -/
def set (arguments : Arguments) (flag : Flag) (given : Given String) :
    Except UsageError Arguments :=
  match flag with
  | .symbol => .ok { arguments with symbol := given }
  | .interval => .ok { arguments with interval := given }
  | .category => .ok { arguments with category := given }
  | .startDate => .ok { arguments with startDate := some given }
  | .endDate => .ok { arguments with endDate := some given }
  | .maxRecords => do return { arguments with maxRecords := ← given.mapM (readInteger flag) }
  | .outputFormat => do return { arguments with outputFormat := ← given.mapM (readFormat flag) }
  | .instrumentIndex => do
    return { arguments with instrumentIndex := some (← given.mapM (readInteger flag)) }
  | .logLevel => .ok { arguments with logLevel := some given }
  | .testnet => .ok arguments
  | .help => .ok arguments

/-- The flags that must be given and were not. -/
def missing (arguments : Arguments) : List Flag :=
  Flag.required.filter fun flag =>
    match flag with
    | .startDate => arguments.startDate.isNone
    | .endDate => arguments.endDate.isNone
    | _ => false

/-- Whether the first of the following arguments can be the value of a flag. -/
def valueFollows : List Token → Bool
  | .plain _ :: _ => true
  | _ => false

/-- Checks what is attached to the short name of the flag for help: the short names of further
flags, up to the first that takes a value. The value is what follows in the cluster or, at its end,
the next argument. -/
def checkCluster (following : List Token) : List Char → Except UsageError Unit
  | [] => .error (.valueUnwanted .help "")
  | c :: rest =>
    match Flag.named? (String.ofList ['-', c]) with
    | none => .error (.valueUnwanted .help (String.ofList (c :: rest)))
    | some flag =>
      if flag.takesValue then
        if rest.isEmpty && !valueFollows following then .error (.valueMissing flag) else .ok ()
      else if rest.isEmpty then .ok ()
      else checkCluster following rest

/-- The end of the arguments: nothing may be missing and nothing left over. -/
def finish (arguments : Arguments) (extra : List String) : Except UsageError Reading :=
  if !arguments.missing.isEmpty then .error (.flagsMissing arguments.missing)
  else if !extra.isEmpty then .error (.unrecognized extra)
  else .ok (.arguments arguments)

/-- Lets the flags take effect one after the other. -/
def readTokens (arguments : Arguments) (extra : List String) :
    List Token → Except UsageError Reading
  | [] => finish arguments extra
  | .flagged .help false (some attached) :: rest => do
    checkCluster rest attached
    return .help
  | .flagged flag _ (some attached) :: rest =>
    if flag.takesValue then do
      readTokens (← arguments.set flag (.ofAttached attached)) extra rest
    else .error (.valueUnwanted flag (String.ofList attached))
  | .flagged .help _ none :: _ => .ok .help
  | .flagged .testnet _ none :: rest => readTokens { arguments with testnet := true } extra rest
  | .flagged flag _ none :: rest =>
    match rest with
    | .plain text :: rest => do readTokens (← arguments.set flag (.value text)) extra rest
    | _ => .error (.valueMissing flag)
  | token :: rest => readTokens arguments (extra ++ [token.text]) rest

/-- Reads the arguments of the command line. -/
def read (given : List String) : Except UsageError Reading := do
  readTokens { } [] (← Token.ofArguments given)

end Arguments

end CandleHistory.CommandLine
