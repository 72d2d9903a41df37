import CandleHistory.Number.Binary64
import CandleHistory.Text.Blank

/-!
The shortest decimal text of a double: the fewest significant digits that read back as the same
double and, of those, the digits nearest to it. For each count of digits only the two neighbours
of the value on that decimal grid are tried, in exact arithmetic.
-/

namespace CandleHistory.Number

namespace Binary64

/-- The position of the decimal point of `n / d`: the integer `x` for which the quotient lies in
the interval from `10 ^ (x - 1)`, included, to `10 ^ x`, excluded. -/
def decimalPoint (n d : Nat) : Int :=
  if d ≤ n then Text.digitCount (n / d) else 1 - Text.digitCount ((d - 1) / n)

/-- The magnitudes that read back as a given double, as bounds over a common denominator. -/
structure ReadBack where
  low : Nat
  value : Nat
  high : Nat
  denominator : Nat
  /-- Whether the bounds themselves read back. -/
  closed : Bool

/-- The interval around a positive magnitude. Its bounds lie half a step away; below a power of
two the steps are half as wide. The bounds round to the even significand. -/
def readBack (units : Nat) : ReadBack :=
  let step := twoPow (droppedPlaces units 1)
  let below := if units = twoPow 52 * step ∧ 1 < step then step else 2 * step
  { low := 4 * units - below
    value := 4 * units
    high := 4 * units + 2 * step
    denominator := 4 * unitsPerOne
    closed := units / step % 2 == 0 }

/-- Whether `digits * 10 ^ exponent` lies in the interval. -/
def ReadBack.holds (interval : ReadBack) (digits : Nat) (exponent : Int) : Bool :=
  let n := digits * tenPow exponent.toNat * interval.denominator
  let d := tenPow (-exponent).toNat
  if interval.closed then interval.low * d ≤ n && n ≤ interval.high * d
  else interval.low * d < n && n < interval.high * d

/-- The neighbour of the value, on the grid of multiples of `10 ^ exponent`, that lies in the
interval. If both do, it is the nearer one, and of two equally near ones the even one. -/
def ReadBack.onGrid? (interval : ReadBack) (exponent : Int) : Option Nat :=
  let n := interval.value * tenPow (-exponent).toNat
  let d := interval.denominator * tenPow exponent.toNat
  let below := n / d
  match interval.holds below exponent, interval.holds (below + 1) exponent with
  | true, true => some (roundHalfEven n d)
  | true, false => some below
  | false, true => some (below + 1)
  | false, false => none

/-- Tries the grids of more and more digits, as many as `tries`, the next one being that of `10 ^
exponent`. The last resort is unreachable, since seventeen digits always read back. -/
def ReadBack.search (interval : ReadBack) : Nat → Int → Nat × Int
  | 0, exponent => (0, exponent)
  | tries + 1, exponent =>
    match interval.onGrid? exponent with
    | some digits => (digits, exponent)
    | none => interval.search tries (exponent - 1)

/-- The digits `c` and the exponent `e` of the shortest decimal `c * 10 ^ e` that reads back as a
positive magnitude. -/
def shortest (units : Nat) : Nat × Int :=
  (readBack units).search 17 (decimalPoint units unitsPerOne - 1)

/-- The choices that a written double leaves open. -/
structure Style where
  /-- The least decimal exponent that is written without an exponent. -/
  firstPositional : Int := -4
  /-- The first decimal exponent above those that are written without an exponent. -/
  firstScientific : Int := 16
  /-- The least number of digits of a written exponent. -/
  exponentWidth : Nat := 2
  infinity : String := "inf"
  notNumber : String := "nan"

/-- A decimal exponent with its sign. -/
def exponentText (style : Style) (exponent : Int) : String :=
  (if exponent < 0 then "e-" else "e+") ++ Text.padded style.exponentWidth exponent.natAbs

/-- A positive decimal number `digits * 10 ^ exponent`, always with a decimal point or an
exponent. -/
def decimalText (style : Style) (digits : List Char) (exponent : Int) : String :=
  let point := digits.length + exponent
  if point - 1 < style.firstPositional ∨ style.firstScientific ≤ point - 1 then
    let fraction := digits.drop 1
    String.ofList (digits.take 1 ++ (if fraction.isEmpty then [] else '.' :: fraction)) ++
      exponentText style (point - 1)
  else if point ≤ 0 then
    String.ofList ('0' :: '.' :: List.replicate (-point).toNat '0' ++ digits)
  else if 0 ≤ exponent then
    String.ofList (digits ++ List.replicate exponent.toNat '0' ++ ['.', '0'])
  else
    String.ofList (digits.take point.toNat ++ '.' :: digits.drop point.toNat)

/-- A magnitude as text. -/
def magnitudeText (style : Style) (units : Nat) : String :=
  if units = 0 then "0.0"
  else
    let (digits, exponent) := shortest units
    let written := Text.decimalDigits digits
    let kept := Text.trimEndWith (· == '0') written
    decimalText style kept (exponent + (written.length - kept.length : Nat))

/-- A double as text, in a given style. -/
def render (style : Style) : Binary64 → String
  | .finite negative units => (if negative then "-" else "") ++ magnitudeText style units
  | .infinite negative => (if negative then "-" else "") ++ style.infinity
  | .nan => style.notNumber

/-- A double as the texts of this library show it. -/
def text (x : Binary64) : String := x.render { }

/-- A double as a JSON document shows it. -/
def jsonText (x : Binary64) : String :=
  x.render { infinity := "Infinity", notNumber := "NaN" }

/-- A double rounded to a whole number, as text; a negative number keeps its sign at zero. -/
def wholeText : Binary64 → String
  | .finite negative units =>
    let whole := roundHalfEven units unitsPerOne
    (if negative then "-" else "") ++ String.ofList (Text.decimalDigits whole)
  | x => x.text

end Binary64

end CandleHistory.Number
