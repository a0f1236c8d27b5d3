import MapGate.Json.Value
import MapGate.Text.List
import MapGate.Text.Percent

/-!
# Reading JSON

The grammar is strict: no trailing commas, no leading zeros, no unescaped
control characters, and nothing but blanks after the value. A whole number of
at most 64 bits is kept exactly, any other number is rounded.
-/

namespace MapGate.Json

/-- The blanks between the parts of a text. -/
def isSpace (c : Char) : Bool := c == ' ' || c == '\n' || c == '\t' || c == '\r'

/-- What follows the blanks at the start. -/
def skipSpace (l : List Char) : List Char := l.dropWhile isSpace

/-! ## Strings -/

/-- The number that four hexadecimal digits stand for. -/
def readHex4? : List Char → Option (Nat × List Char)
  | a :: b :: c :: d :: rest => do
    let a ← Text.hexValue? a
    let b ← Text.hexValue? b
    let c ← Text.hexValue? c
    let d ← Text.hexValue? d
    some (((a * 16 + b) * 16 + c) * 16 + d, rest)
  | _ => none

/-- The character that follows a backslash and a `u`. Two escapes stand for one
character where the first is half of a pair. -/
def readUnicode? (l : List Char) : Option (Char × List Char) := do
  let (high, rest) ← readHex4? l
  if 0xD800 ≤ high ∧ high ≤ 0xDBFF then
    match rest with
    | '\\' :: 'u' :: rest =>
      let (low, rest) ← readHex4? rest
      if 0xDC00 ≤ low ∧ low ≤ 0xDFFF then
        some (Char.ofNat (0x10000 + (high - 0xD800) * 0x400 + (low - 0xDC00)), rest)
      else none
    | _ => none
  else if 0xDC00 ≤ high ∧ high ≤ 0xDFFF then none
  else some (Char.ofNat high, rest)

/-- The character that follows a backslash. -/
def readEscape? : List Char → Option (Char × List Char)
  | '"' :: rest => some ('"', rest)
  | '\\' :: rest => some ('\\', rest)
  | '/' :: rest => some ('/', rest)
  | 'b' :: rest => some ('\x08', rest)
  | 'f' :: rest => some ('\x0c', rest)
  | 'n' :: rest => some ('\n', rest)
  | 'r' :: rest => some ('\r', rest)
  | 't' :: rest => some ('\t', rest)
  | 'u' :: rest => readUnicode? rest
  | _ => none

/-- The string up to its closing quotation mark. Each step passes at least one
character, so `fuel` is enough if it is more than the length. -/
def readStringBody? : (fuel : Nat) → List Char → Option (List Char × List Char)
  | 0, _ => none
  | _ + 1, [] => none
  | fuel + 1, c :: rest =>
    if c = '"' then some ([], rest)
    else if c = '\\' then do
      let (d, rest) ← readEscape? rest
      let (body, rest) ← readStringBody? fuel rest
      some (d :: body, rest)
    else if c.toNat < 0x20 then none
    else do
      let (body, rest) ← readStringBody? fuel rest
      some (c :: body, rest)

/-- The string that starts with a quotation mark. -/
def readString? (l : List Char) : Option (String × List Char) :=
  match l with
  | '"' :: rest =>
    (readStringBody? (rest.length + 1) rest).map fun (s, rest) => (String.ofList s, rest)
  | _ => none

/-! ## Numbers -/

/-- The digits of a number in decimal notation. -/
structure Literal where
  isNegative : Bool
  whole : List Char
  fraction : List Char
  exponent : Int
  /-- Whether there is a point or an exponent. -/
  isWhole : Bool

/-- Cuts off the digits at the start. -/
def spanDigits (l : List Char) : List Char × List Char := l.span Char.isDigit

/-- The fraction after a point, if there is one. -/
def readFraction? (l : List Char) : Option (Option (List Char) × List Char) :=
  match l with
  | '.' :: rest =>
    let (digits, rest) := spanDigits rest
    if digits.isEmpty then none else some (some digits, rest)
  | _ => some (none, l)

/-- The exponent, if there is one. -/
def readExponent? (l : List Char) : Option (Option Int × List Char) :=
  match l with
  | e :: rest =>
    if e = 'e' ∨ e = 'E' then
      let (isNegative, rest) := match rest with
        | '-' :: rest => (true, rest)
        | '+' :: rest => (false, rest)
        | _ => (false, rest)
      let (digits, rest) := spanDigits rest
      let n : Int := Nat.ofDigitChars 10 digits 0
      if digits.isEmpty then none else some (some (if isNegative then -n else n), rest)
    else some (none, l)
  | [] => some (none, l)

/-- The number at the start of a text. -/
def readLiteral? (l : List Char) : Option (Literal × List Char) := do
  let (isNegative, l) := match l with
    | '-' :: rest => (true, rest)
    | _ => (false, l)
  let (whole, l) := spanDigits l
  if whole.isEmpty ∨ (whole.head? = some '0' ∧ whole ≠ ['0']) then none
  else
    let (fraction, l) ← readFraction? l
    let (exponent, l) ← readExponent? l
    some (⟨isNegative, whole, fraction.getD [], exponent.getD 0,
      fraction.isNone && exponent.isNone⟩, l)

/-- The greatest number of 64 bits. -/
def maxWord : Nat := Nat.pow 2 64 - 1

/-- Takes up digits as long as their number fits into 64 bits, and counts the
digits that are left. -/
def significand (start : Nat) : List Char → Nat × Nat
  | [] => (start, 0)
  | d :: ds =>
    let n := start * 10 + (d.toNat - '0'.toNat)
    if n ≤ maxWord then significand n ds else (start, ds.length + 1)

/-- The value of a number, unless it is too great. -/
def Literal.value? (literal : Literal) : Option Json :=
  let n := Nat.ofDigitChars 10 literal.whole 0
  if literal.isWhole ∧ !literal.isNegative ∧ n ≤ maxWord then some (integer n)
  else if literal.isWhole ∧ literal.isNegative ∧ n ≠ 0 ∧ n ≤ Nat.pow 2 63 then some (integer (-n))
  else
    let (whole, left) := significand 0 literal.whole
    let (digits, dropped) := significand whole literal.fraction
    let power := literal.exponent + left - (literal.fraction.length - dropped : Nat)
    (Binary64.ofScientific? digits power).map (decimal literal.isNegative)

/-- The number at the start of a text. -/
def readNumber? (l : List Char) : Option (Json × List Char) := do
  let (literal, rest) ← readLiteral? l
  let value ← literal.value?
  some (value, rest)

/-! ## Values -/

mutual

/-- The value at the start of a text. -/
def readValue? (fuel : Nat) (l : List Char) : Option (Json × List Char) :=
  match fuel with
  | 0 => none
  | fuel + 1 =>
    match skipSpace l with
    | '[' :: rest =>
      match skipSpace rest with
      | ']' :: rest => some (array [], rest)
      | rest => do
        let (value, rest) ← readValue? fuel rest
        let (values, rest) ← readItems? fuel rest
        some (array (value :: values), rest)
    | '\x7b' :: rest =>
      match skipSpace rest with
      | '\x7d' :: rest => some (object [], rest)
      | rest => do
        let (member, rest) ← readMember? fuel rest
        let (members, rest) ← readMembers? fuel rest
        some (object (member :: members), rest)
    | '"' :: rest => (readString? ('"' :: rest)).map fun (s, rest) => (string s, rest)
    | 'n' :: 'u' :: 'l' :: 'l' :: rest => some (null, rest)
    | 't' :: 'r' :: 'u' :: 'e' :: rest => some (bool true, rest)
    | 'f' :: 'a' :: 'l' :: 's' :: 'e' :: rest => some (bool false, rest)
    | l => readNumber? l

/-- The values after the first of an array, up to its end. -/
def readItems? (fuel : Nat) (l : List Char) : Option (List Json × List Char) :=
  match fuel with
  | 0 => none
  | fuel + 1 =>
    match skipSpace l with
    | ']' :: rest => some ([], rest)
    | ',' :: rest => do
      let (value, rest) ← readValue? fuel rest
      let (values, rest) ← readItems? fuel rest
      some (value :: values, rest)
    | _ => none

/-- A key and its value. -/
def readMember? (fuel : Nat) (l : List Char) : Option ((String × Json) × List Char) :=
  match fuel with
  | 0 => none
  | fuel + 1 => do
    let (key, rest) ← readString? (skipSpace l)
    match skipSpace rest with
    | ':' :: rest =>
      let (value, rest) ← readValue? fuel rest
      some ((key, value), rest)
    | _ => none

/-- The members after the first of an object, up to its end. -/
def readMembers? (fuel : Nat) (l : List Char) : Option (List (String × Json) × List Char) :=
  match fuel with
  | 0 => none
  | fuel + 1 =>
    match skipSpace l with
    | '\x7d' :: rest => some ([], rest)
    | ',' :: rest => do
      let (member, rest) ← readMember? fuel rest
      let (members, rest) ← readMembers? fuel rest
      some (member :: members, rest)
    | _ => none

end

/-- The value of a text. -/
def ofChars? (l : List Char) : Option Json := do
  let (value, rest) ← readValue? (2 * l.length + 2) l
  if (skipSpace rest).isEmpty then some value else none

/-- The value of a text. -/
def ofText? (s : String) : Option Json := ofChars? s.toList

end MapGate.Json
