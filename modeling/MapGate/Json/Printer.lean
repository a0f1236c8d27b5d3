import MapGate.Json.Value
import MapGate.Text.Percent

/-!
# Written JSON

A value on one line, without blanks. In strings the quotation mark, the
backslash and control characters are escaped.
-/

namespace MapGate.Json

/-- A character as it stands in a string. -/
def escapeChar (c : Char) : List Char :=
  if c = '"' then ['\\', '"']
  else if c = '\\' then ['\\', '\\']
  else if c = '\n' then ['\\', 'n']
  else if c = '\r' then ['\\', 'r']
  else if c = '\t' then ['\\', 't']
  else if c = '\x08' then ['\\', 'b']
  else if c = '\x0c' then ['\\', 'f']
  else if c.toNat < 0x20 then
    ['\\', 'u', '0', '0', Text.smallHexDigit (c.toNat / 16),
      Text.smallHexDigit (c.toNat % 16)]
  else [c]

/-- A string in quotation marks. -/
def renderString (s : String) : List Char := '"' :: s.toList.flatMap escapeChar ++ ['"']

/-- The digits of a whole number with its sign. -/
def renderInteger (n : Int) : List Char :=
  if n < 0 then '-' :: Nat.toDigits 10 n.natAbs else Nat.toDigits 10 n.natAbs

mutual

/-- The text of a value. -/
def renderChars : Json → List Char
  | null => "null".toList
  | bool true => "true".toList
  | bool false => "false".toList
  | integer n => renderInteger n
  | decimal isNegative magnitude => (if isNegative then ['-'] else []) ++ magnitude.render
  | string s => renderString s
  | array [] => ['[', ']']
  | array (value :: values) => '[' :: value.renderChars ++ renderItems values
  | object [] => ['\x7b', '\x7d']
  | object ((key, value) :: members) =>
    '\x7b' :: renderString key ++ ':' :: value.renderChars ++ renderMembers members

/-- The values after the first of an array, and its end. -/
def renderItems : List Json → List Char
  | [] => [']']
  | value :: values => ',' :: value.renderChars ++ renderItems values

/-- The members after the first of an object, and its end. -/
def renderMembers : List (String × Json) → List Char
  | [] => ['\x7d']
  | (key, value) :: members =>
    ',' :: renderString key ++ ':' :: value.renderChars ++ renderMembers members

end

/-- The text of a value. -/
def render (value : Json) : String := String.ofList value.renderChars

end MapGate.Json
