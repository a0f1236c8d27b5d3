import MapGate.Http.Token
import MapGate.Text.Ascii

/-!
# Headers

A header name is a token in small letters. A message carries headers in their
order, and a name may occur several times.
-/

namespace MapGate

/-- The name of a header: a token without capitals. -/
structure HeaderName where
  text : String
  isToken : Http.isToken text
  lower_text : Text.lower text = text
  deriving DecidableEq

namespace HeaderName

/-- The header name that a text stands for, in whatever case it is written. -/
def ofText? (s : String) : Option HeaderName :=
  let text := Text.lower s
  if h : Http.isToken text ∧ Text.lower text = text then some ⟨text, h.1, h.2⟩ else none

def acceptEncoding : HeaderName := ⟨"accept-encoding", by decide, by decide⟩
def accept : HeaderName := ⟨"accept", by decide, by decide⟩
def connection : HeaderName := ⟨"connection", by decide, by decide⟩
def contentLength : HeaderName := ⟨"content-length", by decide, by decide⟩
def contentType : HeaderName := ⟨"content-type", by decide, by decide⟩
def cookie : HeaderName := ⟨"cookie", by decide, by decide⟩
def host : HeaderName := ⟨"host", by decide, by decide⟩
def keepAlive : HeaderName := ⟨"keep-alive", by decide, by decide⟩
def proxyAuthenticate : HeaderName := ⟨"proxy-authenticate", by decide, by decide⟩
def proxyAuthorization : HeaderName := ⟨"proxy-authorization", by decide, by decide⟩
def te : HeaderName := ⟨"te", by decide, by decide⟩
def trailer : HeaderName := ⟨"trailer", by decide, by decide⟩
def transferEncoding : HeaderName := ⟨"transfer-encoding", by decide, by decide⟩
def upgrade : HeaderName := ⟨"upgrade", by decide, by decide⟩
def userAgent : HeaderName := ⟨"user-agent", by decide, by decide⟩

end HeaderName

namespace Http

/-- Whether bytes can be the value of a header: no control character except
the tab. -/
def isHeaderValue (value : ByteArray) : Bool :=
  value.toList.all fun b => (0x20 ≤ b && b ≠ 0x7F) || b = 0x09

/-- The text of a header value made of visible ASCII characters, spaces and
tabs. -/
def visibleText? (value : ByteArray) : Option String :=
  if value.toList.all fun b => (0x20 ≤ b && b < 0x7F) || b = 0x09 then
    some (String.ofList (value.toList.map fun b => Char.ofNat b.toNat))
  else none

end Http

/-- The headers of a message in their order. -/
structure Headers where
  entries : List (HeaderName × ByteArray)

namespace Headers

/-- No headers. -/
def empty : Headers := ⟨[]⟩

/-- The values of a header in their order. -/
def values (headers : Headers) (name : HeaderName) : List ByteArray :=
  (headers.entries.filter (·.1 = name)).map (·.2)

/-- The first value of a header. -/
def get? (headers : Headers) (name : HeaderName) : Option ByteArray :=
  (headers.entries.find? (·.1 = name)).map (·.2)

/-- Whether a header occurs. -/
def contains (headers : Headers) (name : HeaderName) : Bool :=
  headers.entries.any (·.1 = name)

/-- The headers with one more at the end. -/
def append (headers : Headers) (name : HeaderName) (value : ByteArray) : Headers :=
  ⟨headers.entries ++ [(name, value)]⟩

/-- The headers without those of the given name. -/
def remove (headers : Headers) (name : HeaderName) : Headers :=
  ⟨headers.entries.filter (·.1 ≠ name)⟩

/-- The headers with one value for the given name. -/
def set (headers : Headers) (name : HeaderName) (value : ByteArray) : Headers :=
  (headers.remove name).append name value

/-- The headers with the length of the body announced. -/
def setContentLength (headers : Headers) (length : Nat) : Headers :=
  headers.set .contentLength (toString length).toUTF8

end Headers

end MapGate
