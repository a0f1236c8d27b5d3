import MapGate.Net.Ipv6

/-!
# Socket addresses

An IP address with the number of a socket on it.
-/

namespace MapGate

/-- A socket address. -/
inductive SocketAddress where
  | v4 (ip : Ipv4) (number : UInt16)
  /-- `scope` tells which interface a local address is meant for. -/
  | v6 (ip : Ipv6) (scope : UInt32) (number : UInt16)
  deriving DecidableEq

namespace SocketAddress

/-- The text of an address. -/
def render : SocketAddress → String
  | v4 ip number => String.ofList (ip.renderChars ++ ':' :: Nat.toDigits 10 number.toNat)
  | v6 ip scope number =>
    let scopeChars := if scope = 0 then [] else '%' :: Nat.toDigits 10 scope.toNat
    String.ofList ('[' :: ip.renderMappedChars ++ scopeChars ++ "]:".toList ++
      Nat.toDigits 10 number.toNat)

/-- Reads the number of a socket. -/
def socketNumber? (l : List Char) : Option UInt16 :=
  ((Text.number? 10 l).filter (· < 0x10000)).map UInt16.ofNat

/-- Reads an IPv6 address and perhaps its scope. -/
def scoped? (l : List Char) : Option (Ipv6 × UInt32) :=
  match Text.splitFirst? '%' l with
  | none => (Ipv6.ofChars? l).map (·, 0)
  | some (ip, scope) => do
    let ip ← Ipv6.ofChars? ip
    let scope ← (Text.number? 10 scope).filter (· < 0x100000000)
    some (ip, UInt32.ofNat scope)

/-- Reads an address. -/
def ofText? (s : String) : Option SocketAddress :=
  match s.toList with
  | '[' :: l =>
    match Text.splitAtChars? "]:".toList l with
    | some (ip, number) => do
      let (ip, scope) ← scoped? ip
      some (v6 ip scope (← socketNumber? number))
    | none => none
  | l =>
    match Text.splitFirst? ':' l with
    | some (ip, number) => do some (v4 (← Ipv4.ofChars? ip) (← socketNumber? number))
    | none => none

end SocketAddress

end MapGate
