import MapGate.Text.Percent
import MapGate.Yaml.Cursor

/-!
# Anchors, tags and directives

What may stand in front of a node or of a document: names for later reference,
types, and abbreviations for types.
-/

namespace MapGate.Yaml

/-- The characters of names. -/
def isWordChar (c : Char) : Bool := c.isAlphanum || c == '_' || c == '-'

/-- Reads the name of an anchor or an alias after its indicator. -/
def readName? (c : Cursor) : Option (String × Cursor) :=
  let (name, c) := c.span isWordChar
  let ends := c.blankOrEndAt 0 || c.peek?.any ("?:,]\x7d%@\x60".toList.contains ·)
  if name.isEmpty || !ends then none else some (String.ofList name, c)

/-- Reads a tag handle: an exclamation mark, perhaps a name, and perhaps another
mark. In a directive only a single mark may stand alone. -/
def readHandle? (inDirective : Bool) (c : Cursor) : Option (String × Cursor) :=
  if c.peek? ≠ some '!' then none
  else
    let (name, c) := c.next.span isWordChar
    if c.peek? = some '!' then some (String.ofList ('!' :: name ++ ['!']), c.next)
    else if inDirective && !name.isEmpty then none
    else some (String.ofList ('!' :: name), c)

/-- The characters of a tag; commas and square brackets only in some places. -/
def isTagChar (withIndicators : Bool) (c : Char) : Bool :=
  isWordChar c || ";/?:@&=+$.%!~*'()".toList.contains c ||
    (withIndicators && (c == ',' || c == '[' || c == ']'))

/-- How many bytes a character takes whose first byte is given. -/
def widthOf? (first : Nat) : Option Nat :=
  if first < 0x80 then some 1
  else if first / 0x20 = 0x06 then some 2
  else if first / 0x10 = 0x0E then some 3
  else if first / 0x08 = 0x1E then some 4
  else none

/-- Reads a byte that is written as a percent sign and two digits. -/
def readPercent? : List Char → Option (Nat × List Char)
  | '%' :: a :: b :: rest => do
    let a ← Text.hexValue? a
    let b ← Text.hexValue? b
    some (a * 16 + b, rest)
  | _ => none

/-- Replaces percent-encoded bytes by the characters that they stand for. -/
def decodeTag? : (fuel : Nat) → List Char → Option (List Char)
  | 0, _ => none
  | _ + 1, [] => some []
  | fuel + 1, c :: rest =>
    if c ≠ '%' then (decodeTag? fuel rest).map (c :: ·)
    else do
      let (first, rest) ← readPercent? (c :: rest)
      let width ← widthOf? first
      let rec more : Nat → List Char → Option (List UInt8 × List Char)
        | 0, rest => some ([], rest)
        | n + 1, rest => do
          let (byte, rest) ← readPercent? rest
          if byte / 0x40 ≠ 2 then none
          else
            let (bytes, rest) ← more n rest
            some (UInt8.ofNat byte :: bytes, rest)
      let (bytes, rest) ← more (width - 1) rest
      let s ← String.fromUTF8? ⟨(UInt8.ofNat first :: bytes).toArray⟩
      (decodeTag? fuel rest).map (s.toList ++ ·)

/-- Reads the text of a tag, of which `start` came before. -/
def readTagText? (withIndicators : Bool) (start : List Char) (c : Cursor) :
    Option (String × Cursor) := do
  let (written, c) := c.span (isTagChar withIndicators)
  if start.isEmpty && written.isEmpty then none
  else
    let text ← decodeTag? (written.length + 1) written
    some (String.ofList (start.drop 1 ++ text), c)

/-- Reads a tag: its handle, which is empty where the tag stands for itself, and
its suffix. -/
def readTag? (inFlow : Bool) (c : Cursor) : Option (String × String × Cursor) := do
  let (handle, suffix, c) ←
    if c.rest[1]? = some '<' then do
      let (text, c) ← readTagText? true [] (c.skip 2)
      if c.peek? = some '>' then some ("", text, c.next) else none
    else do
      let (handle, after) ← readHandle? false c
      if 2 ≤ handle.length && handle.toList.getLast? == some '!' then
        let (suffix, c) ← readTagText? false [] after
        some (handle, suffix, c)
      else
        let (suffix, c) ← readTagText? false handle.toList after
        if suffix = "" then some ("", "!", c) else some ("!", suffix, c)
  if c.blankOrEndAt 0 || (inFlow && c.peek? == some ',') then some (handle, suffix, c) else none

/-- What a line before a document says about it. -/
inductive Directive where
  | version (major minor : Nat)
  | tag (handle expansion : String)
  deriving DecidableEq

/-- Reads a number of at most nine digits. -/
def readSmall? (c : Cursor) : Option (Nat × Cursor) :=
  let (digits, c) := c.span Char.isDigit
  if digits.isEmpty || 9 < digits.length then none
  else some (Nat.ofDigitChars 10 digits 0, c)

/-- Reads a directive and the rest of its line. -/
def readDirective? (c : Cursor) : Option (Directive × Cursor) := do
  let (name, c) := c.next.span isWordChar
  if name.isEmpty || !c.blankOrEndAt 0 then none
  else
    let (directive, c) ←
      if name = "YAML".toList then do
        let (major, c) ← readSmall? (c.skipWhile isBlank)
        if c.peek? ≠ some '.' then none
        else
          let (minor, c) ← readSmall? c.next
          some (Directive.version major minor, c)
      else if name = "TAG".toList then do
        let (handle, c) ← readHandle? true (c.skipWhile isBlank)
        if !(c.peek?.any isBlank) then none
        else
          let (expansion, c) ← readTagText? true [] (c.skipWhile isBlank)
          if c.blankOrEndAt 0 then some (Directive.tag handle expansion, c) else none
      else none
    some (directive, ← c.endLine?)

end MapGate.Yaml
