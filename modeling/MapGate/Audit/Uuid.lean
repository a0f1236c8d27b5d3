import MapGate.Text.List
import MapGate.Text.Percent

/-!
# Identifiers

An identifier has sixteen bytes. It is written in small hexadecimal digits with
hyphens in four places, and may be read in some other forms as well.
-/

namespace MapGate

/-- A universally unique identifier. -/
structure Uuid where
  bytes : List UInt8
  length_bytes : bytes.length = 16
  deriving DecidableEq

namespace Uuid

/-- The identifier made of sixteen random bytes, which says that it is one. -/
def ofRandom? (bytes : List UInt8) : Option Uuid :=
  let bytes := bytes.modify 6 fun b => 0x40 ||| (b &&& 0x0F)
  let bytes := bytes.modify 8 fun b => 0x80 ||| (b &&& 0x3F)
  if h : bytes.length = 16 then some ⟨bytes, h⟩ else none

/-- The two digits of a byte. -/
def renderByte (b : UInt8) : List Char :=
  [Text.smallHexDigit (b.toNat / 16), Text.smallHexDigit (b.toNat % 16)]

/-- The groups of bytes between the hyphens. -/
def groups (bytes : List UInt8) : List (List UInt8) :=
  [bytes.take 4, (bytes.drop 4).take 2, (bytes.drop 6).take 2, (bytes.drop 8).take 2,
    bytes.drop 10]

/-- The text of an identifier. -/
def render (id : Uuid) : String :=
  String.ofList (['-'].intercalate ((groups id.bytes).map (·.flatMap renderByte)))

/-- Reads bytes of two digits each. -/
def bytes? : List Char → Option (List UInt8)
  | [] => some []
  | c :: d :: rest => do
    let m ← Text.hexValue? c
    let n ← Text.hexValue? d
    some (UInt8.ofNat (m * 16 + n) :: (← bytes? rest))
  | [_] => none

/-- Reads an identifier without hyphens. -/
def ofDigits? (l : List Char) : Option Uuid := do
  let bytes ← bytes? l
  if h : bytes.length = 16 then some ⟨bytes, h⟩ else none

/-- Reads an identifier with hyphens. -/
def ofHyphenated? (l : List Char) : Option Uuid :=
  let pieces := l.splitOn '-'
  if pieces.map List.length = [8, 4, 4, 4, 12] then ofDigits? pieces.flatten else none

/-- Reads an identifier: with or without hyphens, and with them also in braces or as
the name of a resource. -/
def ofText? (s : String) : Option Uuid :=
  match Text.stripPrefixChars? "urn:uuid:".toList s.toList, s.toList with
  | some l, _ => ofHyphenated? l
  | none, '{' :: l => if l.getLast? = some '}' then ofHyphenated? l.dropLast else none
  | none, l => if l.contains '-' then ofHyphenated? l else ofDigits? l

end Uuid

end MapGate
