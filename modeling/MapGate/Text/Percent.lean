import MapGate.Text.Utf8

/-!
# Percent encoding

A byte is written as a percent sign and two capital hexadecimal digits. Reading
accepts digits of either case, and keeps a percent sign that is not followed by
two of them.
-/

namespace MapGate.Text

/-- The hexadecimal digit of a number below sixteen. -/
def hexDigit (n : Nat) : Char :=
  if n < 10 then Char.ofNat (0x30 + n) else Char.ofNat (0x41 + (n - 10))

/-- The small hexadecimal digit of a number below sixteen. -/
def smallHexDigit (n : Nat) : Char := (hexDigit n).toLower

/-- The value of a hexadecimal digit. -/
def hexValue? (c : Char) : Option Nat :=
  if '0' ≤ c ∧ c ≤ '9' then some (c.toNat - 0x30)
  else if 'A' ≤ c ∧ c ≤ 'F' then some (c.toNat - 0x41 + 10)
  else if 'a' ≤ c ∧ c ≤ 'f' then some (c.toNat - 0x61 + 10)
  else none

/-- A byte as a percent sign and two digits. -/
def percentByte (b : UInt8) : List Char :=
  ['%', hexDigit (b.toNat / 16), hexDigit (b.toNat % 16)]

/-- The value of two hexadecimal digits. -/
def hexByte? (c d : UInt8) : Option UInt8 :=
  match hexValue? (Char.ofNat c.toNat), hexValue? (Char.ofNat d.toNat) with
  | some m, some n => some (UInt8.ofNat (m * 16 + n))
  | _, _ => none

/-- Replaces each percent sign with two digits by the byte they stand for. -/
def percentDecode : List UInt8 → List UInt8
  | [] => []
  | b :: c :: d :: rest =>
    if b = 0x25 then
      match hexByte? c d with
      | some byte => byte :: percentDecode rest
      | none => b :: percentDecode (c :: d :: rest)
    else b :: percentDecode (c :: d :: rest)
  | b :: rest => b :: percentDecode rest

/-- A text with the characters outside `keep` written as percent-encoded
bytes. -/
def percentEncode (keep : Char → Bool) (l : List Char) : List Char :=
  l.flatMap fun c => if keep c then [c] else (Utf8.encodeChar c).flatMap percentByte

end MapGate.Text
