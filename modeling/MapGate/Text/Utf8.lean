/-!
# UTF-8

`encode` gives the bytes of a text. `decode` reads any bytes: a part that is
not well formed becomes one replacement character, and such a part is as long
as it could still have grown into a character.
-/

namespace MapGate.Text.Utf8

/-- The bytes of a character. -/
def encodeChar (c : Char) : List UInt8 :=
  let n := c.toNat
  if n < 0x80 then [UInt8.ofNat n]
  else if n < 0x800 then [UInt8.ofNat (0xC0 + n / 0x40), UInt8.ofNat (0x80 + n % 0x40)]
  else if n < 0x10000 then
    [UInt8.ofNat (0xE0 + n / 0x1000), UInt8.ofNat (0x80 + n / 0x40 % 0x40),
      UInt8.ofNat (0x80 + n % 0x40)]
  else
    [UInt8.ofNat (0xF0 + n / 0x40000), UInt8.ofNat (0x80 + n / 0x1000 % 0x40),
      UInt8.ofNat (0x80 + n / 0x40 % 0x40), UInt8.ofNat (0x80 + n % 0x40)]

/-- The bytes of a list of characters. -/
def encodeChars (l : List Char) : List UInt8 := l.flatMap encodeChar

/-- The bytes of a text. -/
def encode (s : String) : List UInt8 := encodeChars s.toList

/-- The character that stands for bytes that are not well formed. -/
def replacement : Char := '\uFFFD'

/-- Whether a byte can follow the first one of a character. -/
def isContinuation (b : UInt8) : Bool := 0x80 ≤ b && b ≤ 0xBF

/-- Whether a byte starts a character of two bytes. -/
def isLeadOf2 (b : UInt8) : Bool := 0xC2 ≤ b && b ≤ 0xDF

/-- Whether two bytes start a character of three bytes. -/
def startsOf3 (b c : UInt8) : Bool :=
  if b == 0xE0 then 0xA0 ≤ c && c ≤ 0xBF
  else if b == 0xED then 0x80 ≤ c && c ≤ 0x9F
  else isContinuation c

/-- Whether two bytes start a character of four bytes. -/
def startsOf4 (b c : UInt8) : Bool :=
  if b == 0xF0 then 0x90 ≤ c && c ≤ 0xBF
  else if b == 0xF4 then 0x80 ≤ c && c ≤ 0x8F
  else isContinuation c

/-- The six payload bits of a byte that continues a character. -/
def payload (b : UInt8) : Nat := b.toNat - 0x80

/-- The character that `b` starts when `bs` follow, and how many of `bs`
belong to it. -/
def readChar (b : UInt8) (bs : List UInt8) : Char × Nat :=
  if b < 0x80 then (Char.ofNat b.toNat, 0)
  else if isLeadOf2 b then
    match bs with
    | c :: _ =>
      if isContinuation c then (Char.ofNat ((b.toNat - 0xC0) * 0x40 + payload c), 1)
      else (replacement, 0)
    | [] => (replacement, 0)
  else if 0xE0 ≤ b && b ≤ 0xEF then
    match bs with
    | c :: d :: _ =>
      if !startsOf3 b c then (replacement, 0)
      else if isContinuation d then
        (Char.ofNat ((b.toNat - 0xE0) * 0x1000 + payload c * 0x40 + payload d), 2)
      else (replacement, 1)
    | [c] => (replacement, if startsOf3 b c then 1 else 0)
    | [] => (replacement, 0)
  else if 0xF0 ≤ b && b ≤ 0xF4 then
    match bs with
    | c :: d :: e :: _ =>
      if !startsOf4 b c then (replacement, 0)
      else if !isContinuation d then (replacement, 1)
      else if isContinuation e then
        (Char.ofNat ((b.toNat - 0xF0) * 0x40000 + payload c * 0x1000 + payload d * 0x40 +
          payload e), 3)
      else (replacement, 2)
    | [c, d] =>
      (replacement, if !startsOf4 b c then 0 else if isContinuation d then 2 else 1)
    | [c] => (replacement, if startsOf4 b c then 1 else 0)
    | [] => (replacement, 0)
  else (replacement, 0)

/-- Reads the characters of some bytes, of which the first `skip` belong to a
character that was read already. -/
def decodeFrom : (skip : Nat) → List UInt8 → List Char
  | _, [] => []
  | skip + 1, _ :: bs => decodeFrom skip bs
  | 0, b :: bs => (readChar b bs).1 :: decodeFrom (readChar b bs).2 bs

/-- The characters that some bytes stand for. -/
def decodeChars (bs : List UInt8) : List Char := decodeFrom 0 bs

/-- The text that some bytes stand for. -/
def decode (bs : List UInt8) : String := String.ofList (decodeChars bs)

end MapGate.Text.Utf8
