import MapGate.Text.Percent

/-!
# Entities

Five characters have a meaning in markup and stand in texts and attribute
values under a name: `escape` writes them so. `unescape?` reads these names and
character numbers, and knows no other entities.
-/

namespace MapGate.Xml

/-- A character as it is written in texts and attribute values. -/
def escapeChar : Char → List Char
  | '&' => "&amp;".toList
  | '<' => "&lt;".toList
  | '>' => "&gt;".toList
  | '\'' => "&apos;".toList
  | '"' => "&quot;".toList
  | c => [c]

/-- A text as it is written between tags or quotes. -/
def escape (l : List Char) : List Char := l.flatMap escapeChar

/-- The character of a number; zero is none. -/
def charOfNumber? (n : Nat) : Option Char :=
  if n ≠ 0 ∧ n.isValidChar then some (Char.ofNat n) else none

/-- The number that digits of the given base write. -/
def number? (base : Nat) (digits : List Char) : Option Nat :=
  digits.foldlM (fun n c =>
    match Text.hexValue? c with
    | some d => if d < base then some (n * base + d) else none
    | none => none) 0

/-- The character that stands between an ampersand and a semicolon. A number has
up to seven decimal or six hexadecimal digits. -/
def entity? : List Char → Option Char
  | '#' :: 'x' :: digits =>
    if digits.length ≤ 6 then number? 16 digits >>= charOfNumber? else none
  | '#' :: digits => if digits.length ≤ 7 then number? 10 digits >>= charOfNumber? else none
  | ['a', 'm', 'p'] => some '&'
  | ['l', 't'] => some '<'
  | ['g', 't'] => some '>'
  | ['a', 'p', 'o', 's'] => some '\''
  | ['q', 'u', 'o', 't'] => some '"'
  | _ => none

/-- Reads a text in which entities stand for characters. `open?` holds the
name of an entity so far in reverse, if one is being read. -/
def unescapeFrom? : (open? : Option (List Char)) → List Char → Option (List Char)
  | none, [] => some []
  | some _, [] => none
  | none, c :: cs =>
    if c = '&' then unescapeFrom? (some []) cs else (unescapeFrom? none cs).map (c :: ·)
  | some name, c :: cs =>
    if c = ';' then
      match entity? name.reverse with
      | some d => (unescapeFrom? none cs).map (d :: ·)
      | none => none
    else if c = '&' then none
    else unescapeFrom? (some (c :: name)) cs

/-- The text that is written with entities. -/
def unescape? (l : List Char) : Option (List Char) := unescapeFrom? none l

end MapGate.Xml
