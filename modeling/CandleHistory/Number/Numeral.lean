import CandleHistory.Number.Shortest

/-!
Reading numerals. Blanks may stand around a numeral, its digits may be of any script, and a single
underscore may stand between two digits. Integers are limited in length, also when they are
written; real numerals also have a fraction, an exponent, and words for the infinities and for what
is no number.
-/

namespace CandleHistory.Number

/-- The most digits that an integer numeral may have, counting zeros in front. -/
def longestInteger : Nat := 4300

/-- The least number that is too long for an integer numeral. -/
def integerBound : Nat := tenPow longestInteger

/-- The numeral of an integer, unless it would be too long. -/
def integerText? (n : Int) : Option String :=
  if n.natAbs < integerBound then some (toString n) else none

/-- Removes the underscores, each of which must stand between two digits. The flag says whether
the previous character is a digit. -/
def dropGrouping? : Bool → List Char → Option (List Char)
  | _, [] => some []
  | afterDigit, '_' :: rest =>
    match rest with
    | [] => none
    | c :: _ => if afterDigit && Text.isDigit c then dropGrouping? false rest else none
  | _, c :: rest => (dropGrouping? (Text.isDigit c) rest).map (c :: ·)

/-- Takes a sign off the front; without one the number is not negative. -/
def takeSign : List Char → Bool × List Char
  | '-' :: rest => (true, rest)
  | '+' :: rest => (false, rest)
  | cs => (false, cs)

/-- The leading digits, by their values, and what follows them. -/
def takeDigits : List Char → List Nat × List Char
  | [] => ([], [])
  | c :: rest =>
    match Text.digitValue? c with
    | some d => ((takeDigits rest).1.cons d, (takeDigits rest).2)
    | none => ([], c :: rest)

/-- An integer with its sign. -/
def withSign (negative : Bool) (magnitude : Nat) : Int := if negative then -magnitude else magnitude

/-- Reads an integer numeral. -/
def readInteger? (s : String) : Option Int := do
  let cs ← dropGrouping? false (Text.trimWith Text.isNumeralBlank s.toList)
  let (negative, cs) := takeSign cs
  let (digits, rest) := takeDigits cs
  if rest.isEmpty && !digits.isEmpty && digits.length ≤ longestInteger then
    some (withSign negative (Text.digitsValue digits))
  else none

/-- The exponent part of a numeral, after its digits; nothing at all stands for zero. -/
def readExponent? : List Char → Option Int
  | [] => some 0
  | e :: rest =>
    let (negative, rest) := takeSign rest
    let (digits, rest) := takeDigits rest
    if (e = 'e' ∨ e = 'E') && rest.isEmpty && !digits.isEmpty then
      some (withSign negative (Text.digitsValue digits))
    else none

/-- An unsigned decimal numeral, as a coefficient and a decimal exponent: digits with at most one
point among them, and perhaps an exponent. -/
def readScientific? (cs : List Char) : Option (Nat × Int) := do
  let (whole, rest) := takeDigits cs
  let (fraction, rest) :=
    match rest with
    | '.' :: rest => takeDigits rest
    | _ => ([], rest)
  if whole.isEmpty && fraction.isEmpty then none
  else
    let exponent ← readExponent? rest
    some (Text.digitsValue (whole ++ fraction), exponent - fraction.length)

/-- Reads a real numeral to the nearest double. -/
def readReal? (s : String) : Option Binary64 := do
  let cs ← dropGrouping? false (Text.trimWith Text.isNumeralBlank s.toList)
  let (negative, cs) := takeSign cs
  let word := String.ofList (cs.map Char.toLower)
  if word = "inf" ∨ word = "infinity" then some (.infinite negative)
  else if word = "nan" then some .nan
  else
    let (coefficient, exponent) ← readScientific? cs
    some (.ofScientific negative coefficient exponent)

end CandleHistory.Number
