import MapGate.Http.Headers
import MapGate.Text.List

/-!
# Headers of one connection

Some headers are about the connection they came by and are not for anyone
beyond it: eight by their name, and those that a `Connection` header lists.
-/

namespace MapGate.Headers

/-- The headers that are always about a connection. -/
def hopByHopNames : List HeaderName :=
  [.connection, .keepAlive, .proxyAuthenticate, .proxyAuthorization, .te, .trailer,
    .transferEncoding, .upgrade]

/-- The header names in the value of a `Connection` header. A value that is no
visible ASCII names nothing. -/
def namesIn (value : ByteArray) : List HeaderName :=
  match Http.visibleText? value with
  | some text => (Text.splitOn ',' text).filterMap fun name => HeaderName.ofText? (Text.trim name)
  | none => []

/-- The header names that `Connection` headers list. -/
def connectionNames (headers : Headers) : List HeaderName :=
  (headers.values .connection).flatMap namesIn

/-- The headers that are not about the connection. -/
def withoutHopByHop (headers : Headers) : Headers :=
  let names := headers.connectionNames ++ hopByHopNames
  ⟨headers.entries.filter fun entry => !names.contains entry.1⟩

end MapGate.Headers
