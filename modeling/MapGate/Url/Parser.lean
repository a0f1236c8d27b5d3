import MapGate.Url.Basic

/-!
# Reading URLs

A URL is read part by part: a scheme, after it an authority where there is one,
a path, a query and a fragment. What can be written in several ways is brought
to its normal form.
-/

namespace MapGate.Url

/-- Reads a scheme, in small letters, and gives what follows it. -/
def scheme? (l : List Char) : Option (String × List Char) :=
  let isSchemeChar (c : Char) := c.isAlphanum || c = '+' || c = '-' || c = '.'
  match l.head?, l.dropWhile isSchemeChar with
  | some c, ':' :: rest =>
    if c.isAlpha then some (String.ofList ((l.takeWhile isSchemeChar).map Char.toLower), rest)
    else none
  | _, _ => none

/-- Whether a character ends an authority. -/
def endsAuthority (isSpecial : Bool) (c : Char) : Bool :=
  isSlash isSpecial c || c = '?' || c = '#'

/-- The user information of an authority, which ends at the last at sign, and what
follows it. -/
def splitUserInfo (l : List Char) : Option (List Char) × List Char :=
  match l.reverse.dropWhile (· ≠ '@') with
  | [] => (none, l)
  | _ :: info => (some info.reverse, (l.reverse.takeWhile (· ≠ '@')).reverse)

/-- Cuts a host from what follows it, which starts with a colon. Colons in brackets
belong to the host. -/
def spanHost (inBrackets : Bool) : List Char → List Char × List Char
  | [] => ([], [])
  | c :: cs =>
    if c = ':' && !inBrackets then ([], c :: cs)
    else
      let (host, rest) := spanHost (c = '[' || (inBrackets && c ≠ ']')) cs
      (c :: host, rest)

/-- Reads the part of an authority after the host. The inner result is the port
number, unless it is the default one. -/
def readNumber? (scheme : String) : List Char → Option (Option Nat)
  | [] | [':'] => some none
  | _ :: digits => do
    let n ← (Text.number? 10 digits).filter (· < 0x10000)
    some (if some n = defaultNumber? scheme then none else some n)

/-- Reads an authority; `atEnd` tells that nothing follows it. -/
def Authority.ofChars? (scheme : String) (l : List Char) (atEnd : Bool) : Option Authority := do
  let (info?, rest) := splitUserInfo l
  let info := info?.getD []
  let (hostChars, rest) := spanHost false rest
  let host ← if isSpecialScheme scheme then Host.ofSpecial? hostChars else Host.ofOther? hostChars
  let portNumber? ← readNumber? scheme rest
  let encode := Text.percentEncode keepsInUserInfo
  let username := encode (info.takeWhile (· ≠ ':'))
  let password := encode ((info.dropWhile (· ≠ ':')).drop 1)
  let isBare := info? = some [] && rest.isEmpty && !atEnd
  if host.isEmpty && (isBare || !rest.isEmpty || !username.isEmpty || !password.isEmpty) then none
  else some { username, password, host, portNumber? }

/-- The authority of a file, of which only the host can be told. -/
def fileAuthority (host : Host) : Authority := ⟨[], [], host, none⟩

/-- Reads what follows the scheme of a file: its host, which is empty for the local
one, and the text of its path. -/
def fileParts? (l : List Char) : Option (Host × List Char) :=
  match l with
  | c :: d :: rest =>
    if isSlash true c && isSlash true d then
      let hostChars := rest.takeWhile (!endsAuthority true ·)
      if hostChars.isEmpty || isDrive hostChars then some (.name [], rest)
      else do
        let host ← Host.ofSpecial? hostChars
        some (if host = .name "localhost".toList then .name [] else host,
          rest.dropWhile (!endsAuthority true ·))
    else some (.name [], l)
  | _ => some (.name [], l)

/-- Cuts the query and the fragment from a path. -/
def splitTail (l : List Char) : List Char × Option (List Char) × Option (List Char) :=
  let endsPath (c : Char) := c = '?' || c = '#'
  let rest := l.dropWhile (!endsPath ·)
  let query? := match rest with
    | '?' :: rest => some (rest.takeWhile (· ≠ '#'))
    | _ => none
  (l.takeWhile (!endsPath ·), query?, (Text.splitFirst? '#' rest).map (·.2))

/-- The URL of a scheme, an authority, and the text that follows them. -/
def ofParts (scheme : String) (authority? : Option Authority) (readPath : List Char → Path)
    (l : List Char) : Url :=
  let (pathChars, query?, fragment?) := splitTail l
  { scheme, authority?
    path := readPath pathChars
    query? := query?.map (encodeQuery scheme)
    fragment? := fragment?.map (Text.percentEncode keepsInFragment) }

/-- Reads what follows the scheme `file`. Drives are local, whatever the host. -/
def fileUrl? (l : List Char) : Option Url := do
  let (host, rest) ← fileParts? l
  let url := ofParts "file" (some (fileAuthority host)) (.ofSpecial true) rest
  match url.path with
  | .segments names =>
    if names.any isDrive then some { url with authority? := some (fileAuthority (.name [])) }
    else some url
  | .rootless _ => some url

/-- Reads what follows a scheme. -/
def afterScheme? (scheme : String) (l : List Char) : Option Url :=
  let isSpecial := isSpecialScheme scheme
  let withAuthority (l : List Char) (readPath : List Char → Path) : Option Url := do
    let (text, rest) := l.span (!endsAuthority isSpecial ·)
    let authority ← Authority.ofChars? scheme text rest.isEmpty
    some (ofParts scheme (some authority) readPath rest)
  if scheme = "file" then fileUrl? l
  else if isSpecial then withAuthority (l.dropWhile (isSlash true)) (.ofSpecial false)
  else match l with
    | '/' :: '/' :: rest => withAuthority rest .ofOther
    | '/' :: _ => some (ofParts scheme none .ofOther l)
    | _ => some (ofParts scheme none (fun l => .rootless (Text.percentEncode isGraphic l)) l)

/-- A text without control characters and spaces at its ends. -/
def strip (l : List Char) : List Char :=
  let isOuter (c : Char) := c.toNat ≤ 0x20
  ((l.dropWhile isOuter).reverse.dropWhile isOuter).reverse

/-- Reads a URL. -/
def ofChars? (l : List Char) : Option Url := do
  let (scheme, rest) ← scheme? ((strip l).filter (!isIgnored ·))
  afterScheme? scheme rest

/-- Reads a URL. -/
def ofText? (s : String) : Option Url := ofChars? s.toList

end MapGate.Url
