import MapGate.Text.Ascii
import MapGate.Text.List

/-!
# Request targets

The target of a request names what is asked for: a path, perhaps after a scheme
and an authority, and a query. A fragment does not count. Targets are taken as
they are written, nothing in them is decoded.
-/

namespace MapGate

/-- The parts of a request target that matter. -/
structure Target where
  path : String
  query? : Option String
  deriving DecidableEq

namespace Target

/-- The characters of a path. -/
def isPathChar (c : Char) : Bool :=
  let n := c.toNat
  n == 0x21 || n == 0x22 || (0x24 ≤ n && n ≤ 0x3B) || n == 0x3D || (0x40 ≤ n && n ≤ 0x5F) ||
    (0x61 ≤ n && n ≤ 0x7E) || 0x7F ≤ n

/-- The characters of a query. -/
def isQueryChar (c : Char) : Bool :=
  let n := c.toNat
  n == 0x21 || (0x24 ≤ n && n ≤ 0x3B) || n == 0x3D || 0x3F ≤ n

/-- Reads a path and a query, which end at a fragment. -/
def ofPathAndQuery? (l : List Char) : Option Target :=
  let l := l.takeWhile (· ≠ '#')
  let path := l.takeWhile (· ≠ '?')
  let query := l.dropWhile (· ≠ '?')
  if path.all isPathChar && (query.drop 1).all isQueryChar then
    some ⟨if path.isEmpty then "/" else String.ofList path,
      if query.isEmpty then none else some (String.ofList (query.drop 1))⟩
  else none

/-- The characters that may stand in an authority. -/
def isAuthorityChar (c : Char) : Bool :=
  c.isAlphanum || "!$&'()*+,-.:;=?@[]_~%".toList.contains c

/-- What is known of an authority after some of its characters. -/
structure AuthorityScan where
  /-- The colons that could separate a port. -/
  colons : Nat := 0
  opened : Bool := false
  closed : Bool := false
  percent : Bool := false
  deriving DecidableEq

/-- Takes one more character of an authority, if it may stand there. -/
def AuthorityScan.step (scan : AuthorityScan) (c : Char) : Option AuthorityScan :=
  if !isAuthorityChar c then none
  else if c = ':' then
    if 8 ≤ scan.colons then none else some { scan with colons := scan.colons + 1 }
  else if c = '[' then
    if scan.percent || scan.opened then none else some { scan with opened := true }
  else if c = ']' then
    if !scan.opened || scan.closed then none
    else some { scan with closed := true, colons := 0, percent := false }
  else if c = '@' then some { scan with colons := 0, percent := false }
  else if c = '%' then some { scan with percent := true }
  else some scan

/-- Whether some characters are an authority: perhaps user information, a host,
perhaps in brackets, and perhaps a port. -/
def isAuthority (l : List Char) : Bool :=
  match l.foldlM AuthorityScan.step {} with
  | none => false
  | some scan =>
    scan.opened == scan.closed && scan.colons ≤ 1 && !scan.percent && l.getLast? != some '@'

/-- Cuts a list after its authority. -/
def spanAuthority (l : List Char) : List Char × List Char :=
  l.span fun c => c ≠ '/' && c ≠ '?' && c ≠ '#'

/-- What follows the scheme and the two slashes of a target that has a
scheme. -/
def afterScheme? (l : List Char) : Option (List Char) :=
  let scheme := l.takeWhile fun c => c.isAlphanum || c = '+' || c = '-' || c = '.'
  if scheme.length ≤ 64 then Text.stripPrefixChars? "://".toList (l.drop scheme.length) else none

/-- Reads a request target: a path, an asterisk, an authority alone, or a
scheme with an authority and a path. -/
def ofText? (s : String) : Option Target :=
  if 65534 < s.utf8ByteSize then none
  else match s.toList with
  | [] => none
  | '/' :: _ => ofPathAndQuery? s.toList
  | ['*'] => some ⟨"*", none⟩
  | l =>
    match afterScheme? l with
    | some rest =>
      let (authority, rest) := spanAuthority rest
      if !authority.isEmpty && isAuthority authority then ofPathAndQuery? rest else none
    | none => if isAuthority l && (spanAuthority l).2.isEmpty then some ⟨"", none⟩ else none

end Target

end MapGate
