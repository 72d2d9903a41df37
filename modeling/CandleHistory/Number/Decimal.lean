import CandleHistory.Number.Numeral

/-!
Decimal numbers as they are written: a sign, a coefficient and an exponent are kept apart, so
`1.50` and `1.5` are equal in value and different in form. Reading never rounds.
-/

namespace CandleHistory.Number

/-- A decimal number. A datum that is no number has a sign, may be a signaling one, and carries a
payload of digits, zero for none. -/
inductive Decimal where
  | finite (negative : Bool) (coefficient : Nat) (exponent : Int)
  | infinite (negative : Bool)
  | nan (negative signaling : Bool) (payload : Nat)
  deriving DecidableEq, Inhabited, Repr

namespace Decimal

/-- The largest decimal exponent that the leading digit of a number may have. -/
def largestExponent : Int := 999999999999999999

/-- The least exponent that the last digit of a number may have. -/
def leastExponent : Int := -1999999999999999997

/-- The most digits that decimal arithmetic can hold. -/
def mostDigits : Int := 1000000000000000000

/-- Whether a number is neither infinite nor something else than a number. -/
def isFinite : Decimal → Bool
  | finite .. => true
  | infinite _ => false
  | nan .. => false

/-- A finite number, unless its exponents are out of range. -/
def ofScientific? (negative : Bool) (coefficient : Nat) (exponent : Int) : Option Decimal :=
  let lead := if coefficient = 0 then exponent else exponent + Text.digitCount coefficient - 1
  if largestExponent < lead ∨ exponent < leastExponent then none
  else some (.finite negative coefficient exponent)

/-- The payload of a datum that is no number: digits only, perhaps none. -/
def readPayload? (cs : List Char) : Option Nat :=
  let (digits, rest) := takeDigits cs
  if rest.isEmpty then some (Text.digitsValue digits) else none

/-- The words for an infinity. -/
def infinityWords : List String := ["inf", "infinity"]

/-- Reads the words for what is not a finite number, in lower case. -/
def readSpecial? (negative : Bool) (cs : List Char) : Option Decimal :=
  match cs with
  | 'n' :: 'a' :: 'n' :: rest => (readPayload? rest).map (.nan negative false)
  | 's' :: 'n' :: 'a' :: 'n' :: rest => (readPayload? rest).map (.nan negative true)
  | _ => if infinityWords.contains (String.ofList cs) then some (.infinite negative) else none

/-- Reads a decimal number. Blanks around it do not count, nor do underscores anywhere in it. -/
def read? (s : String) : Option Decimal :=
  let (negative, cs) := takeSign ((Text.trimWith Text.isBlank s.toList).filter (· != '_'))
  match readScientific? cs with
  | some (coefficient, exponent) => ofScientific? negative coefficient exponent
  | none => readSpecial? negative (cs.map Char.toLower)

/-- The minus sign of a negative number. -/
def signText (negative : Bool) : String := if negative then "-" else ""

/-- The coefficient with its point, and the exponent unless it is zero. The number is positional
if its exponent is not positive and at most six zeros follow the point. -/
def finiteText (coefficient : Nat) (exponent : Int) : String :=
  let digits := Text.decimalDigits coefficient
  let point := digits.length + exponent
  if exponent ≤ 0 ∧ -6 ≤ point - 1 then
    if exponent = 0 then String.ofList digits
    else if point ≤ 0 then
      String.ofList ('0' :: '.' :: List.replicate (-point).toNat '0' ++ digits)
    else String.ofList (digits.take point.toNat ++ '.' :: digits.drop point.toNat)
  else
    let fraction := digits.drop 1
    String.ofList (digits.take 1 ++ (if fraction.isEmpty then [] else '.' :: fraction)) ++
      (if point - 1 < 0 then "E-" else "E+") ++ toString (point - 1).natAbs

/-- A decimal number in its own form: reading the text of a number gives the number back. -/
def text : Decimal → String
  | .finite negative coefficient exponent => signText negative ++ finiteText coefficient exponent
  | .infinite negative => signText negative ++ "Infinity"
  | .nan negative signaling payload =>
    signText negative ++ (if signaling then "sNaN" else "NaN") ++
      (if payload = 0 then "" else toString payload)

/-- The coefficient of a finite number rounded to `places` digits after the point. -/
def roundedCoefficient (places coefficient : Nat) (exponent : Int) : Nat :=
  let shift := exponent + places
  if 0 ≤ shift then coefficient * tenPow shift.toNat
  else if Text.digitCount coefficient < -shift then 0
  else roundHalfEven coefficient (tenPow (-shift).toNat)

/-- How many digits a nonzero number has down to the last of `places` digits after the point. -/
def fixedDigits (places coefficient : Nat) (exponent : Int) : Int :=
  if coefficient = 0 then 0 else Text.digitCount coefficient + exponent + places

/-- A number with `places` digits after the point, rounded half to even, unless it has more digits
than decimal arithmetic can hold. The sign stays on numbers that round to zero. -/
def fixedText? (places : Nat) : Decimal → Option String
  | .finite negative coefficient exponent =>
    if mostDigits < fixedDigits places coefficient exponent then none
    else
      let rounded := if coefficient = 0 then 0 else roundedCoefficient places coefficient exponent
      let fraction := Text.padded places (rounded % tenPow places)
      some (signText negative ++ toString (rounded / tenPow places) ++ "." ++ fraction)
  | d => some d.text

/-- The double nearest to a number; a signaling datum has none. -/
def toBinary64? : Decimal → Option Binary64
  | .finite negative coefficient exponent => some (.ofScientific negative coefficient exponent)
  | .infinite negative => some (.infinite negative)
  | .nan _ signaling _ => if signaling then none else some .nan

end Decimal

end CandleHistory.Number
