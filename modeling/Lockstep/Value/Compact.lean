import Lockstep.Binary64.Shortest
import Lockstep.Text.Quoted
import Lockstep.Value.Basic
set_option autoImplicit false

/-!
# Compact JSON text

The one text of a value: no white space, the fields of an object in the order of
their keys, floats in their shortest form with a point or an exponent.
-/

namespace Lockstep

/-- The text of a number. -/
def Number.text : Number → String
  | .int n => toString n
  | .float f => f.text

namespace Value

/-- How a character stands in a JSON string: quotes, backslashes and the
characters below the space are escaped, the common ones by a letter. -/
def escape (c : Char) : List Char :=
  if c = '"' then ['\\', '"']
  else if c = '\\' then ['\\', '\\']
  else if c = '\n' then ['\\', 'n']
  else if c = '\r' then ['\\', 'r']
  else if c = '\t' then ['\\', 't']
  else if c = '\x08' then ['\\', 'b']
  else if c = '\x0c' then ['\\', 'f']
  else if c.toNat < 0x20 then Text.unicodeEscape c
  else [c]

/-- A string in JSON text. -/
def quote (text : String) : String := String.ofList (Text.quoted escape text.toList)

mutual

/-- The compact text of a value. -/
def compact : Value → String
  | .null => "null"
  | .bool b => if b then "true" else "false"
  | .number n => n.text
  | .string s => quote s
  | .array [] => "[]"
  | .array (item :: items) => "[" ++ compact item ++ compactItems items ++ "]"
  | .object [] => "\x7b\x7d"
  | .object ((key, value) :: fields) =>
    "\x7b" ++ quote key ++ ":" ++ compact value ++ compactFields fields ++ "\x7d"

/-- The items of an array after the first, each behind a comma. -/
def compactItems : List Value → String
  | [] => ""
  | item :: items => "," ++ compact item ++ compactItems items

/-- The fields of an object after the first, each behind a comma. -/
def compactFields : List (String × Value) → String
  | [] => ""
  | (key, value) :: fields =>
    "," ++ quote key ++ ":" ++ compact value ++ compactFields fields

end

end Value

end Lockstep
