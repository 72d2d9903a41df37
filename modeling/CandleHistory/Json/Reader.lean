import CandleHistory.Value

/-!
Reading JSON documents. Every reader takes the characters in front of it and returns the rest. A
numeral without fraction and exponent is a whole number of any size, every other one the nearest
double. Of two fields with one name the later value counts, in the place of the first.
-/

namespace CandleHistory.Json

open Number (Binary64)

/-- Whether a character may stand between the tokens of a document. -/
def isSpace (c : Char) : Bool := c == ' ' || c == '\t' || c == '\n' || c == '\r'

/-- What follows the spaces. -/
def skipSpaces (cs : List Char) : List Char := cs.dropWhile isSpace

/-- The value of a plain decimal digit. -/
def plainDigit? (c : Char) : Option Nat :=
  if '0' ≤ c ∧ c ≤ '9' then some (c.toNat - '0'.toNat) else none

/-- The leading plain digits, by their values, and what follows them. -/
def takePlainDigits : List Char → List Nat × List Char
  | [] => ([], [])
  | c :: rest =>
    match plainDigit? c with
    | some d => ((takePlainDigits rest).1.cons d, (takePlainDigits rest).2)
    | none => ([], c :: rest)

/-- The digits of a fraction, if a point follows. -/
def readFraction? : List Char → Option (List Nat × List Char)
  | '.' :: rest =>
    let (digits, rest) := takePlainDigits rest
    if digits.isEmpty then none else some (digits, rest)
  | cs => some ([], cs)

/-- The exponent, if there is one; the flag tells. -/
def readExponent? : List Char → Option (Bool × Int × List Char)
  | c :: rest =>
    if c = 'e' ∨ c = 'E' then
      let (negative, rest) := Number.takeSign rest
      let (digits, rest) := takePlainDigits rest
      if digits.isEmpty then none
      else some (true, Number.withSign negative (Text.digitsValue digits), rest)
    else some (false, 0, c :: rest)
  | [] => some (false, 0, [])

/-- Reads a numeral without its sign. A numeral of several digits does not begin with a zero. -/
def readMagnitude? (negative : Bool) (cs : List Char) : Option (Value × List Char) := do
  let (whole, rest) := takePlainDigits cs
  if whole.isEmpty || (whole.length != 1 && whole.head? == some 0) then none
  else
    let (fraction, rest) ← readFraction? rest
    let (scaled, exponent, rest) ← readExponent? rest
    if fraction.isEmpty && !scaled then
      some (.integer (Number.withSign negative (Text.digitsValue whole)), rest)
    else
      let coefficient := Text.digitsValue (whole ++ fraction)
      some (.real (.ofScientific negative coefficient (exponent - fraction.length)), rest)

/-- The value of a hexadecimal digit. -/
def hexDigit? (c : Char) : Option Nat :=
  if '0' ≤ c ∧ c ≤ '9' then some (c.toNat - '0'.toNat)
  else if 'a' ≤ c ∧ c ≤ 'f' then some (c.toNat - 'a'.toNat + 10)
  else if 'A' ≤ c ∧ c ≤ 'F' then some (c.toNat - 'A'.toNat + 10)
  else none

/-- The number that four hexadecimal digits write. -/
def readUnit? : List Char → Option (Nat × List Char)
  | a :: b :: c :: d :: rest => do
    let digits ← [a, b, c, d].mapM hexDigit?
    some (digits.foldl (fun value digit => 16 * value + digit) 0, rest)
  | _ => none

/-- The character that one or two escaped units stand for, and what follows them. Half of a pair
without the other half is shown as a replacement character. -/
def readEscaped? (cs : List Char) : Option (Char × List Char) := do
  let (high, rest) ← readUnit? cs
  if 0xD800 ≤ high ∧ high < 0xDC00 then
    match rest with
    | '\\' :: 'u' :: more =>
      let (low, after) ← readUnit? more
      if 0xDC00 ≤ low ∧ low < 0xE000 then
        some (Char.ofNat (0x10000 + (high - 0xD800) * 0x400 + (low - 0xDC00)), after)
      else some ('\uFFFD', rest)
    | _ => some ('\uFFFD', rest)
  else if 0xDC00 ≤ high ∧ high < 0xE000 then some ('\uFFFD', rest)
  else some (Char.ofNat high, rest)

/-- The character that a short escape stands for. -/
def shortEscape? : Char → Option Char
  | '"' => some '"'
  | '\\' => some '\\'
  | '/' => some '/'
  | 'b' => some '\x08'
  | 'f' => some '\x0c'
  | 'n' => some '\n'
  | 'r' => some '\r'
  | 't' => some '\t'
  | _ => none

/-- Reads a text after its opening quote. The characters read so far are in reverse order. -/
def readText? : Nat → List Char → List Char → Option (String × List Char)
  | 0, _, _ => none
  | fuel + 1, before, cs =>
    match cs with
    | '"' :: rest => some (String.ofList before.reverse, rest)
    | '\\' :: 'u' :: rest => do
      let (c, rest) ← readEscaped? rest
      readText? fuel (c :: before) rest
    | '\\' :: c :: rest => do
      let c ← shortEscape? c
      readText? fuel (c :: before) rest
    | c :: rest => if c.toNat < 0x20 then none else readText? fuel (c :: before) rest
    | [] => none

mutual

/-- Reads a datum after the spaces in front of it. -/
def readValue? : Nat → List Char → Option (Value × List Char)
  | 0, _ => none
  | fuel + 1, cs =>
    match skipSpaces cs with
    | 'n' :: 'u' :: 'l' :: 'l' :: rest => some (.null, rest)
    | 't' :: 'r' :: 'u' :: 'e' :: rest => some (.boolean true, rest)
    | 'f' :: 'a' :: 'l' :: 's' :: 'e' :: rest => some (.boolean false, rest)
    | '"' :: rest => do
      let (s, rest) ← readText? (rest.length + 1) [] rest
      some (.text s, rest)
    | '[' :: rest =>
      match skipSpaces rest with
      | ']' :: rest => some (.list [], rest)
      | _ => do
        let (items, rest) ← readItems? fuel rest
        some (.list items, rest)
    | '\x7b' :: rest =>
      match skipSpaces rest with
      | '\x7d' :: rest => some (.object [], rest)
      | _ => do
        let (fields, rest) ← readFields? fuel [] rest
        some (.object fields, rest)
    | '-' :: rest => readMagnitude? true rest
    | rest => readMagnitude? false rest

/-- Reads the items of a list, at least one, and the closing bracket. -/
def readItems? : Nat → List Char → Option (List Value × List Char)
  | 0, _ => none
  | fuel + 1, cs => do
    let (item, rest) ← readValue? fuel cs
    match skipSpaces rest with
    | ']' :: rest => some ([item], rest)
    | ',' :: rest =>
      let (items, rest) ← readItems? fuel rest
      some (item :: items, rest)
    | _ => none

/-- Reads the fields of an object, at least one, and the closing brace. -/
def readFields? : Nat → List (String × Value) → List Char →
    Option (List (String × Value) × List Char)
  | 0, _, _ => none
  | fuel + 1, before, cs =>
    match skipSpaces cs with
    | '"' :: rest => do
      let (name, rest) ← readText? (rest.length + 1) [] rest
      match skipSpaces rest with
      | ':' :: rest =>
        let (value, rest) ← readValue? fuel rest
        let fields := Value.setField name value before
        match skipSpaces rest with
        | '\x7d' :: rest => some (fields, rest)
        | ',' :: rest => readFields? fuel fields rest
        | _ => none
      | _ => none
    | _ => none

end

/-- Reads a document: one datum with nothing but spaces around it. Every step of the readers takes
a character, so the length bounds their depth. -/
def read? (s : String) : Option Value := do
  let cs := s.toList
  let (value, rest) ← readValue? (2 * cs.length + 2) cs
  if (skipSpaces rest).isEmpty then some value else none

end CandleHistory.Json
