import MapGate.Ows.Params
import MapGate.Url.Host
import MapGate.Url.Path

/-!
# URLs

The parts of a URL in their normal form, its text, and changes of its parts.
-/

namespace MapGate

/-- Who serves a URL. A host may be empty after schemes that are not special. -/
structure Url.Authority where
  username : List Char
  password : List Char
  host : Url.Host
  portNumber? : Option Nat
  deriving DecidableEq

/-- A URL. -/
structure Url where
  scheme : String
  authority? : Option Url.Authority
  path : Url.Path
  query? : Option (List Char)
  fragment? : Option (List Char)
  deriving DecidableEq

namespace Url

/-! ## Schemes -/

/-- The number of the port that a scheme uses by default. -/
def defaultNumber? : String → Option Nat
  | "http" | "ws" => some 80
  | "https" | "wss" => some 443
  | "ftp" => some 21
  | _ => none

/-- Whether a scheme is special: its URLs always have a path, and all but those of
files a host. -/
def isSpecialScheme (scheme : String) : Bool :=
  scheme == "file" || (defaultNumber? scheme).isSome

/-! ## Text -/

/-- The text of an authority. -/
def Authority.renderChars (authority : Authority) : List Char :=
  (if authority.username.isEmpty && authority.password.isEmpty then []
    else authority.username ++
      (if authority.password.isEmpty then [] else ':' :: authority.password) ++ ['@']) ++
  authority.host.renderChars ++
  match authority.portNumber? with
  | some n => ':' :: Nat.toDigits 10 n
  | none => []

/-- The text between the scheme and the path. Without an authority a path must not
look as if it had one. -/
def renderAuthority (url : Url) : List Char :=
  match url.authority?, url.path with
  | some authority, _ => "//".toList ++ authority.renderChars
  | none, .segments ([] :: _ :: _) => "/.".toList
  | none, _ => []

/-- The text of a URL as characters. -/
def renderChars (url : Url) : List Char :=
  url.scheme.toList ++ ':' :: url.renderAuthority ++ url.path.renderChars ++
  (match url.query? with
    | some query => '?' :: query
    | none => []) ++
  match url.fragment? with
  | some fragment => '#' :: fragment
  | none => []

/-- The text of a URL. -/
def render (url : Url) : String := String.ofList url.renderChars

/-! ## Parts -/

/-- The parameters in the query of a URL. -/
def params (url : Url) : Params := .ofQuery (String.ofList (url.query?.getD []))

/-- A query as it stands after a scheme. -/
def encodeQuery (scheme : String) (l : List Char) : List Char :=
  Text.percentEncode (if isSpecialScheme scheme then keepsInSpecialQuery else keepsInQuery) l

/-- The URL with another query. -/
def setQuery (url : Url) (query : String) : Url :=
  { url with query? := some (encodeQuery url.scheme query.toList) }

/-- Whether a character is left out wherever it stands in a URL. -/
def isIgnored (c : Char) : Bool := c = '\t' || c = '\n' || c = '\r'

/-- The URL, whose scheme has to be special, with another path. -/
def setPath (url : Url) (path : String) : Url :=
  { url with path := .ofSpecial (url.scheme == "file") (path.toList.filter (!isIgnored ·)) }

/-- The URL with scheme, host and port number of `base`, if their schemes are
special ones that need a host. -/
def moveTo? (url base : Url) : Option Url :=
  if (defaultNumber? url.scheme).isSome && (defaultNumber? base.scheme).isSome then
    match url.authority?, base.authority? with
    | some authority, some { host, portNumber?, .. } =>
      some { url with
        scheme := base.scheme, authority? := some { authority with host, portNumber? } }
    | _, _ => none
  else none

end Url

end MapGate
