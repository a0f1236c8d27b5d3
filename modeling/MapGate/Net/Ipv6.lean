import MapGate.Net.Ipv4

/-!
# IPv6 addresses

Eight groups of sixteen bits, written in hexadecimal with colons between them.
Two colons in a row stand for one or more groups of zero. The last two groups
may be written as an IPv4 address.
-/

namespace MapGate

/-- An IPv6 address. -/
structure Ipv6 where
  groups : List UInt16
  length_groups : groups.length = 8
  deriving DecidableEq

namespace Ipv6

/-! ## Writing -/

/-- The text of a group. -/
def renderGroup (group : UInt16) : List Char := Nat.toDigits 16 group.toNat

/-- The text of some groups. -/
def renderGroups (groups : List UInt16) : List Char :=
  [':'].intercalate (groups.map renderGroup)

/-- How many zeros a list starts with. -/
def leadingZeros (groups : List UInt16) : Nat := (groups.takeWhile (· == 0)).length

/-- Where the first of the longest runs of zeros starts, and its length. -/
def longestRun : List UInt16 → Nat × Nat
  | [] => (0, 0)
  | g :: gs =>
    let (start, length) := longestRun gs
    if length ≤ leadingZeros (g :: gs) then (0, leadingZeros (g :: gs)) else (start + 1, length)

/-- The text of an address: the first of the longest runs of two or more zeros
is left out. -/
def renderChars (ip : Ipv6) : List Char :=
  let (start, length) := longestRun ip.groups
  if length < 2 then renderGroups ip.groups
  else
    renderGroups (ip.groups.take start) ++ "::".toList ++
      renderGroups (ip.groups.drop (start + length))

/-- The IPv4 address within an address that stands for one. -/
def mapped? (ip : Ipv6) : Option Ipv4 :=
  match ip.groups with
  | [0, 0, 0, 0, 0, 0xFFFF, m, n] => some (.ofNat (m.toNat * 0x10000 + n.toNat))
  | _ => none

/-- The text of an address, with an IPv4 address in it written as such. -/
def renderMappedChars (ip : Ipv6) : List Char :=
  match ip.mapped? with
  | some v4 => "::ffff:".toList ++ v4.renderChars
  | none => ip.renderChars

/-! ## Reading -/

/-- Reads a group. -/
def group? (l : List Char) : Option UInt16 :=
  if l.length ≤ 4 then (Text.number? 16 l).map UInt16.ofNat else none

/-- The two groups of an IPv4 address. -/
def groupsOfV4 (ip : Ipv4) : List UInt16 :=
  [UInt16.ofNat (ip.a.toNat * 0x100 + ip.b.toNat), UInt16.ofNat (ip.c.toNat * 0x100 + ip.d.toNat)]

/-- Reads the groups that some pieces between colons stand for; the last piece
may be an IPv4 address if `mayEndInV4`. -/
def groups? (mayEndInV4 : Bool) : List (List Char) → Option (List UInt16)
  | [] => some []
  | [piece] =>
    match group? piece with
    | some g => some [g]
    | none => if mayEndInV4 then (Ipv4.ofChars? piece).map groupsOfV4 else none
  | piece :: pieces => do
    let g ← group? piece
    let gs ← groups? mayEndInV4 pieces
    some (g :: gs)

/-- Reads groups with colons between them; an empty text has none. -/
def groupsOfChars? (mayEndInV4 : Bool) (l : List Char) : Option (List UInt16) :=
  if l.isEmpty then some [] else groups? mayEndInV4 (l.splitOn ':')

/-- The address with the given groups, if they are eight. -/
def ofGroups? (groups : List UInt16) : Option Ipv6 :=
  if h : groups.length = 8 then some ⟨groups, h⟩ else none

/-- Reads an address. -/
def ofChars? (l : List Char) : Option Ipv6 :=
  match Text.splitAtChars? "::".toList l with
  | none => do ofGroups? (← groupsOfChars? true l)
  | some (before, after) => do
    let front ← groupsOfChars? false before
    let back ← groupsOfChars? true after
    if front.length + back.length < 8 then
      ofGroups? (front ++ List.replicate (8 - front.length - back.length) 0 ++ back)
    else none

end Ipv6

end MapGate
