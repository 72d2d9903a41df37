import CandleHistory.Calendar.Instant

/-!
Dates written as year, month and day with slashes between them. The year has four digits of any
script. The month and the day have one digit or two; a blank may stand for a zero in front of the
day. The reader takes the longest day it can and then complains about what is left over.
-/

namespace CandleHistory.Calendar

/-- Why a text is not a date. -/
inductive DateError where
  /-- The text does not begin with a year, a month and a day. -/
  | mismatch (text : String)
  /-- Something follows the day. -/
  | leftOver (rest : String)
  /-- The calendar has no such year. -/
  | noSuchYear (year : Nat)
  /-- The month has no such day. -/
  | noSuchDay
  deriving DecidableEq, Repr

namespace Date

/-- Reads a year of four digits. -/
def readYear? : List Char → Option (Nat × List Char)
  | a :: b :: c :: d :: rest => do
    let digits ← [a, b, c, d].mapM Text.digitValue?
    some (Text.digitsValue digits, rest)
  | _ => none

/-- The value of a plain digit from one to nine. -/
def nonzeroDigit? (c : Char) : Option Nat :=
  if '1' ≤ c ∧ c ≤ '9' then some (c.toNat - '0'.toNat) else none

/-- Reads a month: ten to twelve, or one digit with or without a zero in front. -/
def readMonth? : List Char → Option (Nat × List Char)
  | '1' :: '0' :: rest => some (10, rest)
  | '1' :: '1' :: rest => some (11, rest)
  | '1' :: '2' :: rest => some (12, rest)
  | '0' :: c :: rest => (nonzeroDigit? c).map (·, rest)
  | c :: rest => (nonzeroDigit? c).map (·, rest)
  | [] => none

/-- Reads a day: thirty or thirty-one, ten to twenty-nine with a last digit of any script, or one
digit with or without a zero or a blank in front. -/
def readDay? : List Char → Option (Nat × List Char)
  | '3' :: '0' :: rest => some (30, rest)
  | '3' :: '1' :: rest => some (31, rest)
  | '0' :: c :: rest => (nonzeroDigit? c).map (·, rest)
  | ' ' :: c :: rest => (nonzeroDigit? c).map (·, rest)
  | [c] => (nonzeroDigit? c).map (·, [])
  | c :: d :: rest =>
    match if c = '1' ∨ c = '2' then Text.digitValue? d else none with
    | some last => some ((c.toNat - '0'.toNat) * 10 + last, rest)
    | none => (nonzeroDigit? c).map (·, d :: rest)
  | [] => none

/-- Reads a slash. -/
def readSlash? : List Char → Option (List Char)
  | '/' :: rest => some rest
  | _ => none

/-- Reads a year, a month and a day with slashes between them, whether or not they name a date. -/
def readFields? (cs : List Char) : Option (Date × List Char) := do
  let (year, cs) ← readYear? cs
  let cs ← readSlash? cs
  let (month, cs) ← readMonth? cs
  let cs ← readSlash? cs
  let (day, cs) ← readDay? cs
  some (⟨year, month, day⟩, cs)

/-- Reads a date. -/
def read (s : String) : Except DateError Date :=
  match readFields? s.toList with
  | none => .error (.mismatch s)
  | some (date, rest) =>
    if !rest.isEmpty then .error (.leftOver (String.ofList rest))
    else if date.year = 0 then .error (.noSuchYear date.year)
    else if !date.isValid then .error .noSuchDay
    else .ok date

/-- The Unix milliseconds of midnight UTC at the start of the date. -/
def startMillis (date : Date) : Int :=
  86400000 * ((date.dayCount : Int) - epochDay)

end Date

end CandleHistory.Calendar
