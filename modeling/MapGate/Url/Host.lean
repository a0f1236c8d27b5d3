import MapGate.Net.Ipv6
import MapGate.Text.List
import MapGate.Url.Encoding
import MapGate.Url.Punycode

/-!
# Hosts

The host of a URL is an address or a name. After a special scheme a name is a
domain, of which the letter case does not count, and a name that ends in a
number has to be an IPv4 address, whose parts may be hexadecimal or octal and
may be fewer than four. After other schemes any name will do.
-/

namespace MapGate.Url

/-- The host of a URL. -/
inductive Host where
  | name (text : List Char)
  | v4 (ip : Ipv4)
  | v6 (ip : Ipv6)
  deriving DecidableEq

namespace Host

/-- The text of a host. -/
def renderChars : Host → List Char
  | name text => text
  | v4 ip => ip.renderChars
  | v6 ip => '[' :: ip.renderChars ++ [']']

/-- Whether there is a host at all. -/
def isEmpty (host : Host) : Bool := host == name []

/-! ## Numbers as addresses -/

/-- Reads a part of a numeric address: hexadecimal after `0x`, octal after `0`,
decimal otherwise. -/
def part? : List Char → Option Nat
  | ['0', 'x'] | ['0', 'X'] => some 0
  | '0' :: 'x' :: l | '0' :: 'X' :: l => Text.number? 16 l
  | '0' :: c :: l => Text.number? 8 (c :: l)
  | l => Text.number? 10 l

/-- The labels of a name, without the empty one after a final point. -/
def labels (l : List Char) : List (List Char) :=
  let pieces := l.splitOn '.'
  if pieces.getLast? = some [] then pieces.dropLast else pieces

/-- Whether the last label of a name is a number. -/
def endsInNumber (l : List Char) : Bool :=
  match (labels l).getLast? with
  | none => false
  | some label => (!label.isEmpty && label.all Char.isDigit) || (part? label).isSome

/-- The address that some parts stand for: the last part fills all bytes that the
others leave. -/
def addressOfParts? (parts : List Nat) : Option Ipv4 := do
  let last ← parts.getLast?
  let front := parts.dropLast
  if 3 < front.length || front.any (255 < ·) || Nat.pow 256 (4 - front.length) ≤ last then none
  else
    let value := (front.zipIdx.map fun (part, i) => part * Nat.pow 256 (3 - i)).foldl (· + ·) last
    some (Ipv4.ofNat value)

/-- Reads a numeric address. -/
def address? (l : List Char) : Option Ipv4 := do
  addressOfParts? (← (labels l).mapM part?)

/-! ## Domains -/

/-- The characters that a domain cannot have. -/
def isForbidden (c : Char) : Bool :=
  c.toNat ≤ 0x20 || c.toNat = 0x7F || "#%/:<>?@[\\]^|".toList.contains c

/-- The character that a domain has for one that is written, an approximation of the mapping
of UTS 46. It is exact for ASCII. Beyond it, common Latin, Greek and Cyrillic letters become
small, wide forms become ASCII and full stops points. All else that the mapping changes,
splits or leaves out stays as it is. -/
def toSmall (c : Char) : Char :=
  let n := c.toNat
  if n < 0x80 then c.toLower
  else if (0xC0 ≤ n && n ≤ 0xDE && n ≠ 0xD7) || (0x391 ≤ n && n ≤ 0x3AB && n ≠ 0x3A2) ||
      (0x410 ≤ n && n ≤ 0x42F) then Char.ofNat (n + 0x20)
  else if 0x400 ≤ n && n ≤ 0x40F then Char.ofNat (n + 0x50)
  else if ((0x100 ≤ n && n ≤ 0x137 && n ≠ 0x130) || (0x14A ≤ n && n ≤ 0x177)) && n % 2 = 0 ||
      0x139 ≤ n && n ≤ 0x148 && n % 2 = 1 then Char.ofNat (n + 1)
  else if 0xFF01 ≤ n && n ≤ 0xFF5E then (Char.ofNat (n - 0xFEE0)).toLower
  else if n = 0x3002 || n = 0xFF0E || n = 0xFF61 then '.'
  else c

/-- Characters beyond ASCII that are never part of a domain, an approximation of those that
UTS 46 does not allow: controls, characters for private use, the replacement character and
the marks of lines and directions. Others that are not allowed are let through. -/
def isNeverInDomain (c : Char) : Bool :=
  let n := c.toNat
  (0x80 ≤ n && n ≤ 0x9F) || n = 0xFFFD || (0xE000 ≤ n && n ≤ 0xF8FF) || (0x2028 ≤ n && n ≤ 0x202E)

/-- A label in ASCII. -/
def asciiLabel (label : List Char) : List Char :=
  if label.all (·.toNat < 0x80) then label else "xn--".toList ++ Punycode.encode label

/-- Reads a domain. -/
def domain? (l : List Char) : Option (List Char) :=
  let decoded := Text.Utf8.decodeChars (Text.percentDecode (Text.Utf8.encodeChars l))
  let small := decoded.map toSmall
  if small.isEmpty || small.any fun c => isForbidden c || isNeverInDomain c then none
  else some (['.'].intercalate ((small.splitOn '.').map asciiLabel))

/-! ## Reading -/

/-- Reads an address in brackets. -/
def bracketed? (l : List Char) : Option Host :=
  if l.getLast? = some ']' then (Ipv6.ofChars? l.dropLast).map v6 else none

/-- Reads the host after a special scheme. -/
def ofSpecial? : List Char → Option Host
  | '[' :: l => bracketed? l
  | l => do
    let domain ← domain? l
    if endsInNumber domain then (address? domain).map v4 else some (name domain)

/-- The characters that no host can have. -/
def isForbiddenInName (c : Char) : Bool := "\x00\t\n\r #/:<>?@[\\]^|".toList.contains c

/-- Reads the host after another scheme. -/
def ofOther? : List Char → Option Host
  | '[' :: l => bracketed? l
  | l =>
    if l.any isForbiddenInName then none
    else some (name (Text.percentEncode isGraphic l))

end Host

end MapGate.Url
