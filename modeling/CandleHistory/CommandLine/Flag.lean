import CandleHistory.Number.Numeral
import CandleHistory.Text.Quoted

/-!
The flags of the command line: their names, which of them take a value, and how a single argument
is recognised as a flag. A long flag may be shortened as long as it stays unique, and a value may
be attached to its flag.
-/

namespace CandleHistory.CommandLine

/-- A flag of the command line. -/
inductive Flag where
  | help
  | symbol
  | interval
  | category
  | startDate
  | endDate
  | maxRecords
  | outputFormat
  | instrumentIndex
  | testnet
  | logLevel
  deriving DecidableEq, Inhabited, Repr

namespace Flag

/-- All flags, in the order in which they are listed. -/
def all : List Flag :=
  [help, symbol, interval, category, startDate, endDate, maxRecords, outputFormat,
    instrumentIndex, testnet, logLevel]

/-- The names of a flag, a short one first. -/
def names : Flag → List String
  | help => ["-h", "--help"]
  | symbol => ["-s", "--symbol"]
  | interval => ["-i", "--interval"]
  | category => ["-c", "--category"]
  | startDate => ["--start-date"]
  | endDate => ["--end-date"]
  | maxRecords => ["-m", "--max-records"]
  | outputFormat => ["--output-format"]
  | instrumentIndex => ["--instrument-index"]
  | testnet => ["--testnet"]
  | logLevel => ["--log-level"]

/-- Whether a value belongs to a flag. -/
def takesValue : Flag → Bool
  | help => false
  | testnet => false
  | _ => true

/-- The flags that must be given. -/
def required : List Flag := [startDate, endDate]

/-- A flag by all its names. -/
def label (flag : Flag) : String := "/".intercalate flag.names

/-- All names with their flags. -/
def table : List (String × Flag) := all.flatMap fun flag => flag.names.map (·, flag)

/-- The flag with a given name. -/
def named? (name : String) : Option Flag := (table.find? (·.1 == name)).map (·.2)

end Flag

/-- What can be wrong with the arguments. -/
inductive UsageError where
  /-- A shortened name stands for several flags. -/
  | ambiguous (given : String) (candidates : List String)
  | valueMissing (flag : Flag)
  /-- A value is attached to a flag that takes none. -/
  | valueUnwanted (flag : Flag) (value : String)
  | notInteger (flag : Flag) (value : String)
  | notOffered (flag : Flag) (value : String) (offered : List String)
  | flagsMissing (flags : List Flag)
  | unrecognized (arguments : List String)
  deriving DecidableEq, Repr

/-- What is wrong with the arguments, in words. -/
def UsageError.message : UsageError → String
  | .ambiguous given candidates =>
    s!"ambiguous option: {given} could match " ++ ", ".intercalate candidates
  | .valueMissing flag => s!"argument {flag.label}: expected one argument"
  | .valueUnwanted flag value =>
    s!"argument {flag.label}: ignored explicit argument {Text.quoted value}"
  | .notInteger flag value => s!"argument {flag.label}: invalid int value: {Text.quoted value}"
  | .notOffered flag value offered =>
    let choices := ", ".intercalate (offered.map Text.quoted)
    s!"argument {flag.label}: invalid choice: {Text.quoted value} (choose from {choices})"
  | .flagsMissing flags =>
    "the following arguments are required: " ++ ", ".intercalate (flags.map Flag.label)
  | .unrecognized arguments => "unrecognized arguments: " ++ " ".intercalate arguments

/-- An argument, as what it is recognised. -/
inductive Token where
  | plain (text : String)
  /-- The two hyphens after which all arguments are plain. -/
  | divider
  | unknown (text : String)
  /-- A flag by its long or its short name, and what is attached to it. -/
  | flagged (flag : Flag) (isLong : Bool) (attached : Option (List Char))
  deriving DecidableEq, Repr

namespace Token

/-- An argument as it was given, for what is no flag. -/
def text : Token → String
  | plain text => text
  | divider => "--"
  | unknown text => text
  | flagged flag .. => flag.label

/-- Splits an argument at its first equals sign. -/
def splitAtEquals (cs : List Char) : List Char × Option (List Char) :=
  match cs.dropWhile (· != '=') with
  | [] => (cs, none)
  | _ :: value => (cs.takeWhile (· != '='), some value)

/-- Whether a name is a long one. -/
def isLongName (name : String) : Bool := "--".isPrefixOf name

/-- The flags that an argument may stand for if it is not a full name: a shortened long name, or a
short name with its value right after it. -/
def candidates (cs : List Char) : List (String × Flag × Option (List Char)) :=
  match cs with
  | '-' :: '-' :: _ =>
    let (name, attached) := splitAtEquals cs
    (Flag.table.filter fun entry => name.isPrefixOf entry.1.toList).map fun entry =>
      (entry.1, entry.2, attached)
  | '-' :: c :: value =>
    (Flag.table.filter fun entry => entry.1.toList == ['-', c]).map fun entry =>
      (entry.1, entry.2, some value)
  | _ => []

/-- Whether an argument is a negative number: a hyphen and digits, perhaps with a point before the
last of them. A line end after it does not count. -/
def isNegativeNumber (cs : List Char) : Bool :=
  let cs := if cs.getLast? = some '\n' then cs.dropLast else cs
  match cs with
  | '-' :: rest =>
    let fraction := (rest.dropWhile Text.isDigit).drop 1
    if rest.all Text.isDigit then !rest.isEmpty
    else (rest.dropWhile Text.isDigit).head? == some '.' && !fraction.isEmpty &&
      fraction.all Text.isDigit
  | _ => false

/-- What an argument with a hyphen in front is when no flag has exactly its name. -/
def ofUnnamed (given : String) : Except UsageError Token :=
  let cs := given.toList
  match candidates cs with
  | [(name, flag, attached)] => .ok (.flagged flag (isLongName name) attached)
  | [] =>
    if isNegativeNumber cs || cs.contains ' ' then .ok (.plain given) else .ok (.unknown given)
  | several => .error (.ambiguous given (several.map (·.1)))

/-- What an argument is. -/
def ofArgument (given : String) : Except UsageError Token :=
  if !"-".isPrefixOf given then .ok (.plain given)
  else
    match Flag.named? given with
    | some flag => .ok (.flagged flag (isLongName given) none)
    | none =>
      if given = "-" then .ok (.plain given)
      else
        let (name, attached) := splitAtEquals given.toList
        let name := String.ofList name
        match attached, Flag.named? name with
        | some attached, some flag => .ok (.flagged flag (isLongName name) (some attached))
        | _, _ => ofUnnamed given

/-- What the arguments are. -/
def ofArguments : List String → Except UsageError (List Token)
  | [] => .ok []
  | given :: rest =>
    if given = "--" then .ok (.divider :: rest.map .plain)
    else do
      let token ← ofArgument given
      let tokens ← ofArguments rest
      return token :: tokens

end Token

end CandleHistory.CommandLine
