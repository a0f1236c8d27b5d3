import MapGate.Audit.Date
import MapGate.Text.List
import MapGate.Text.Number

/-!
# Timestamps

A moment in universal time, to the nanosecond. It is written as RFC 3339 has
it, with as many digits after the point as are needed out of 0, 3, 6 and 9.
Reading also takes times of other zones, and is lenient about leading zeros and
blanks.
-/

namespace MapGate

/-- A moment. The second 60 is a leap second. -/
structure Timestamp where
  date : Date
  hour : Fin 24
  minute : Fin 60
  second : Fin 61
  nanosecond : Fin 1000000000
  deriving DecidableEq

namespace Timestamp

/-! ## Writing -/

/-- A number with at least `width` digits. -/
def padded (width n : Nat) : List Char :=
  let digits := Nat.toDigits 10 n
  List.replicate (width - digits.length) '0' ++ digits

/-- A year; one that has not four digits has a sign. -/
def renderYear (year : Int) : List Char :=
  if 0 ≤ year && year ≤ 9999 then padded 4 year.toNat
  else (if year < 0 then '-' else '+') :: padded 4 year.natAbs

/-- The part of a second. -/
def renderFraction (nanosecond : Nat) : List Char :=
  if nanosecond = 0 then []
  else if nanosecond % 1000000 = 0 then '.' :: padded 3 (nanosecond / 1000000)
  else if nanosecond % 1000 = 0 then '.' :: padded 6 (nanosecond / 1000)
  else '.' :: padded 9 nanosecond

/-- The text of a moment. -/
def render (t : Timestamp) : String :=
  String.ofList <|
    renderYear t.date.year ++ '-' :: padded 2 t.date.month ++ '-' :: padded 2 t.date.day ++
      'T' :: padded 2 t.hour ++ ':' :: padded 2 t.minute ++ ':' :: padded 2 t.second ++
      renderFraction t.nanosecond ++ ['Z']

/-! ## Reading -/

/-- Reads digits, one at least and `width` at most, after some blanks. -/
def readNumber? (width : Nat) (l : List Char) : Option (Nat × List Char) :=
  let l := Text.trimLeftChars l
  let digits := (l.take width).takeWhile Char.isDigit
  (Text.number? 10 digits).map (·, l.drop digits.length)

/-- Reads the digits after a sign, of which there may be any number. -/
def readSigned? (l : List Char) : Option (Nat × List Char) :=
  if l.head?.any Char.isDigit then readNumber? l.length l else none

/-- Reads a year: four digits at most, or more after a sign. -/
def readYear? (l : List Char) : Option (Int × List Char) :=
  match Text.trimLeftChars l with
  | '-' :: rest => (readSigned? rest).map fun (n, rest) => (-(n : Int), rest)
  | '+' :: rest => (readSigned? rest).map fun (n, rest) => ((n : Int), rest)
  | l => (readNumber? 4 l).map fun (n, rest) => ((n : Int), rest)

/-- Reads a separator, perhaps after blanks, and a number of two digits. -/
def readPart? (separator : Char) (l : List Char) : Option (Nat × List Char) :=
  match Text.trimLeftChars l with
  | c :: rest => if c = separator then readNumber? 2 rest else none
  | [] => none

/-- Reads the part of a second, in nanoseconds; further digits do not count. -/
def readFraction? : List Char → Option (Nat × List Char)
  | '.' :: l =>
    let digits := l.takeWhile Char.isDigit
    let counted := digits.take 9
    (Text.number? 10 counted).map fun n =>
      (n * Nat.pow 10 (9 - counted.length), l.dropWhile Char.isDigit)
  | l => some (0, l)

/-- Reads two digits. -/
def twoDigits? : List Char → Option (Nat × List Char)
  | c :: d :: rest => (Text.number? 10 [c, d]).map (·, rest)
  | _ => none

/-- How far a zone is ahead of universal time, in minutes. -/
def readOffset? (l : List Char) : Option (Int × List Char) :=
  let hoursAndMinutes (l : List Char) : Option (Int × List Char) := do
    let (hours, l) ← twoDigits? l
    let (minutes, l) ← twoDigits? (l.dropWhile fun c => c = ':' || Text.isBlank c)
    if minutes < 60 then some ((hours * 60 + minutes : Nat), l) else none
  if (l.take 3).map Char.toUpper = "UTC".toList then some (0, l.drop 3)
  else match l with
    | 'Z' :: l | 'z' :: l => some (0, l)
    | '+' :: l => hoursAndMinutes l
    | '-' :: l | '\u2212' :: l => (hoursAndMinutes l).map fun (n, l) => (-n, l)
    | _ => none

/-- The moment of a time of day in a zone that is `offset` minutes ahead. -/
def ofLocal? (date : Date) (hour minute second nanosecond : Nat) (offset : Int) :
    Option Timestamp := do
  if 24 ≤ hour || 60 ≤ minute || 1440 ≤ offset.natAbs then none
  let minutes : Int := (hour * 60 + minute : Nat) - offset
  let date ← if minutes < 0 then date.previous? else if 1440 ≤ minutes then date.next? else date
  let inDay := (minutes % 1440).toNat
  if h : inDay / 60 < 24 ∧ second < 61 ∧ nanosecond < 1000000000 then
    some ⟨date, ⟨inDay / 60, h.1⟩, ⟨inDay % 60, Nat.mod_lt _ (by decide)⟩, ⟨second, h.2.1⟩,
      ⟨nanosecond, h.2.2⟩⟩
  else none

/-- Reads a moment. -/
def ofText? (s : String) : Option Timestamp := do
  let (year, l) ← readYear? s.toList
  let (month, l) ← readPart? '-' l
  let (day, l) ← readPart? '-' l
  let date ← Date.ofParts? year month day
  let c ← l.head?
  if c ≠ 'T' && c ≠ 't' && c ≠ ' ' then none
  let (hour, l) ← readNumber? 2 (l.drop 1)
  let (minute, l) ← readPart? ':' l
  let (second, l) ← readPart? ':' l
  let (nanosecond, l) ← readFraction? l
  let (offset, l) ← readOffset? (Text.trimLeftChars l)
  if (Text.trimLeftChars l).isEmpty then ofLocal? date hour minute second nanosecond offset
  else none

end Timestamp

end MapGate
