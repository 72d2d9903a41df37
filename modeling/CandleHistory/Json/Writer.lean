import CandleHistory.Value

/-!
Writing JSON documents without any space between the tokens. All that is written is plain ASCII,
so other characters are escaped as one or two 16-bit units. A number that is not finite is written
as a word, which is the one departure from the standard. A document with an integer of too many
digits cannot be written.
-/

namespace CandleHistory.Json

/-- An escaped 16-bit unit. -/
def unitText (code : Nat) : List Char := '\\' :: 'u' :: Text.hexDigits 4 code

/-- A character inside a written text. -/
def charText (c : Char) : List Char :=
  if c = '"' then ['\\', '"']
  else if c = '\\' then ['\\', '\\']
  else if c = '\n' then ['\\', 'n']
  else if c = '\r' then ['\\', 'r']
  else if c = '\t' then ['\\', 't']
  else if c = '\x08' then ['\\', 'b']
  else if c = '\x0c' then ['\\', 'f']
  else if 0x20 ≤ c.toNat ∧ c.toNat < 0x7F then [c]
  else if c.toNat < 0x10000 then unitText c.toNat
  else
    let code := c.toNat - 0x10000
    unitText (0xD800 + code / 0x400) ++ unitText (0xDC00 + code % 0x400)

/-- A text in quotes. -/
def textLiteral (s : String) : String :=
  String.ofList ('"' :: s.toList.flatMap charText ++ ['"'])

mutual

/-- A datum as a document. -/
def write? : Value → Option String
  | .null => some "null"
  | .boolean value => some (if value then "true" else "false")
  | .integer value => Number.integerText? value
  | .real value => some value.jsonText
  | .text value => some (textLiteral value)
  | .list items => (writeItems? items).map fun inside => "[" ++ inside ++ "]"
  | .tuple items => (writeItems? items).map fun inside => "[" ++ inside ++ "]"
  | .object fields => (writeFields? fields).map fun inside => "\x7b" ++ inside ++ "\x7d"

/-- Items with commas between them. -/
def writeItems? : List Value → Option String
  | [] => some ""
  | [item] => write? item
  | item :: items => do
    let first ← write? item
    let rest ← writeItems? items
    return first ++ "," ++ rest

/-- Fields with commas between them. -/
def writeFields? : List (String × Value) → Option String
  | [] => some ""
  | [(name, value)] => (write? value).map fun text => textLiteral name ++ ":" ++ text
  | (name, value) :: fields => do
    let text ← write? value
    let rest ← writeFields? fields
    return textLiteral name ++ ":" ++ text ++ "," ++ rest

end

end CandleHistory.Json
