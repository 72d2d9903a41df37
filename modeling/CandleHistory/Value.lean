import CandleHistory.Number.Decimal
import CandleHistory.Text.Quoted

/-!
Data of unknown shape, as they come out of a JSON document or from a caller. A tuple is a list of
fixed length that is shown in round brackets. The module says how a datum is shown in a message,
what counts as absent, and how a datum compares with a whole number.
-/

namespace CandleHistory

open Number (Binary64)

/-- A datum of unknown shape. The fields of an object keep their order. -/
inductive Value where
  | null
  | boolean (value : Bool)
  | integer (value : Int)
  | real (value : Binary64)
  | text (value : String)
  | list (items : List Value)
  | tuple (items : List Value)
  | object (fields : List (String × Value))
  deriving Inhabited, Repr

namespace Value

mutual

/-- A datum as it is shown inside another one: texts are in quotes. -/
def quoted : Value → String
  | .null => "None"
  | .boolean value => if value then "True" else "False"
  | .integer value => toString value
  | .real value => value.text
  | .text value => Text.quoted value
  | .list items => "[" ++ quotedItems items ++ "]"
  | .tuple [item] => "(" ++ item.quoted ++ ",)"
  | .tuple items => "(" ++ quotedItems items ++ ")"
  | .object fields => "\x7b" ++ quotedFields fields ++ "\x7d"

/-- Items with commas between them. -/
def quotedItems : List Value → String
  | [] => ""
  | [item] => item.quoted
  | item :: items => item.quoted ++ ", " ++ quotedItems items

/-- Fields with commas between them. -/
def quotedFields : List (String × Value) → String
  | [] => ""
  | [(name, value)] => Text.quoted name ++ ": " ++ value.quoted
  | (name, value) :: fields =>
    Text.quoted name ++ ": " ++ value.quoted ++ ", " ++ quotedFields fields

end

/-- A datum as it is shown in a message: a text stands as it is. -/
def display : Value → String
  | .text value => value
  | value => value.quoted

/-- The word for the kind of a datum. -/
def kindName : Value → String
  | .null => "None"
  | .boolean _ => "bool"
  | .integer _ => "int"
  | .real _ => "float"
  | .text _ => "str"
  | .list _ => "list"
  | .tuple _ => "tuple"
  | .object _ => "dict"

/-- Whether a datum counts as present: it is not null, false, zero or empty. -/
def isPresent : Value → Bool
  | .null => false
  | .boolean value => value
  | .integer value => value != 0
  | .real value => !value.equalsInt 0
  | .text value => !value.isEmpty
  | .list items => !items.isEmpty
  | .tuple items => !items.isEmpty
  | .object fields => !fields.isEmpty

/-- Whether a datum is a number equal to `n`. The truth values count as one and zero. -/
def equalsInt (value : Value) (n : Int) : Bool :=
  match value with
  | .boolean b => n == if b then 1 else 0
  | .integer m => m == n
  | .real x => x.equalsInt n
  | _ => false

/-- Whether a datum is a whole number by its kind. The truth values are. -/
def isInteger : Value → Bool
  | .boolean _ => true
  | .integer _ => true
  | _ => false

mutual

/-- Whether a datum can be looked up in a set: no part of it is a list or an object. -/
def isKey : Value → Bool
  | .list _ => false
  | .object _ => false
  | .tuple items => areKeys items
  | _ => true

/-- Whether all items can be looked up in a set. -/
def areKeys : List Value → Bool
  | [] => true
  | item :: items => item.isKey && areKeys items

end

/-- The field of an object with a given name. -/
def field? (name : String) : List (String × Value) → Option Value
  | [] => none
  | (key, value) :: fields => if key = name then some value else field? name fields

/-- Gives a field a value. A field that is there already keeps its place. -/
def setField (name : String) (value : Value) : List (String × Value) → List (String × Value)
  | [] => [(name, value)]
  | (key, old) :: fields =>
    if key = name then (key, value) :: fields else (key, old) :: setField name value fields

/-- What a datum consists of when it is gone through: the items of a list or tuple, the characters
of a text, the names of an object's fields. Other data cannot be gone through. -/
def elements? : Value → Option (List Value)
  | .list items => some items
  | .tuple items => some items
  | .text value => some (value.toList.map fun c => .text c.toString)
  | .object fields => some (fields.map fun field => .text field.1)
  | _ => none

end Value

end CandleHistory
