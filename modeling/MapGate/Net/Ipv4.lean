import MapGate.Text.List
import MapGate.Text.Number

/-!
# IPv4 addresses

Four bytes, written as decimal numbers with points between them.
-/

namespace MapGate

/-- An IPv4 address. -/
structure Ipv4 where
  a : UInt8
  b : UInt8
  c : UInt8
  d : UInt8
  deriving DecidableEq

namespace Ipv4

/-- The address with the given value as one number. -/
def ofNat (n : Nat) : Ipv4 where
  a := UInt8.ofNat (n / 0x1000000)
  b := UInt8.ofNat (n / 0x10000)
  c := UInt8.ofNat (n / 0x100)
  d := UInt8.ofNat n

/-- The text of an address. -/
def renderChars (ip : Ipv4) : List Char :=
  ['.'].intercalate ([ip.a, ip.b, ip.c, ip.d].map fun byte => Nat.toDigits 10 byte.toNat)

/-- Reads a byte in decimal digits. -/
def byte? (l : List Char) : Option UInt8 :=
  if l.length ≤ 3 then
    ((Text.plainNumber? l).filter (· < 256)).map UInt8.ofNat
  else none

/-- Reads an address. -/
def ofChars? (l : List Char) : Option Ipv4 := do
  match (← (l.splitOn '.').mapM byte?) with
  | [a, b, c, d] => some ⟨a, b, c, d⟩
  | _ => none

end Ipv4

end MapGate
