import CandleHistory.Market.Interval

/-!
What a fetch asks for: the symbol, the width of the bars, the kind of market, and the most bars
for one call. The symbol is brought to upper case, and the limit must be one that the exchange
allows.
-/

namespace CandleHistory

open Number (Binary64)

/-- Why the parameters of a fetch are refused. -/
inductive RequestError where
  | invalid (reason : InputError)
  /-- The symbol is neither absent nor a text. -/
  | symbolNotText
  /-- The limit is no number. -/
  | limitNotNumber
  deriving Repr

/-- Whether the exchange allows a limit. -/
def Request.allowsLimit (limit : Int) : Bool := 1 ≤ limit && limit ≤ largestPage

/-- The parameters that all calls of a fetch share. -/
structure Request where
  symbol : String
  interval : Interval
  category : Category
  limit : Int
  allowed : Request.allowsLimit limit = true := by decide
  deriving Repr

namespace Request

theorem one_le_limit (request : Request) : 1 ≤ request.limit :=
  of_decide_eq_true (Bool.and_eq_true_iff.mp request.allowed).1

theorem limit_le (request : Request) : request.limit ≤ largestPage :=
  of_decide_eq_true (Bool.and_eq_true_iff.mp request.allowed).2

/-- A symbol without blanks at its ends, in upper case. -/
def normalSymbol (symbol : String) : String := Text.upper (Text.trim symbol)

/-- The symbol that a text stands for; it must not be empty. -/
def readSymbol (text : String) : Except InputError String :=
  let symbol := normalSymbol text
  if symbol.isEmpty then .error .emptySymbol else .ok symbol

/-- The symbol that a datum stands for. An absent one stands for an empty symbol. -/
def checkSymbol (given : Value) : Except RequestError String :=
  if given.isPresent then
    match given with
    | .text text => (readSymbol text).mapError .invalid
    | _ => .error .symbolNotText
  else .error (.invalid .emptySymbol)

/-- Whether the exchange allows a limit of any kind; data that are not numbers have no answer. -/
def allowsLimit? : Value → Option Bool
  | .boolean b => some (allowsLimit (if b then 1 else 0))
  | .integer n => some (allowsLimit n)
  | .real x => some (Binary64.le (.ofInt 1) x && x.le (.ofInt largestPage))
  | _ => none

/-- Lets a limit pass if the exchange allows it. -/
def checkLimit (given : Value) : Except RequestError Value :=
  match allowsLimit? given with
  | some true => .ok given
  | some false => .error (.invalid (.limitOutOfRange given))
  | none => .error .limitNotNumber

/-- The parameters of a fetch, after the checks of the symbol and then of the limit. -/
def make (symbol : String) (interval : Interval) (category : Category) (limit : Int) :
    Except InputError Request := do
  let symbol ← readSymbol symbol
  if allowed : allowsLimit limit = true then
    return { symbol, interval, category, limit, allowed }
  else throw (.limitOutOfRange (.integer limit))

end Request

end CandleHistory
