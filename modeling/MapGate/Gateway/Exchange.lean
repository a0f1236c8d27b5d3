import MapGate.Gate.Direction
import MapGate.Gate.Error
import MapGate.Http.HopByHop

/-!
# What goes between client, gate and renderer

A reply goes back to the client, from the renderer or from the gate itself. The
gate's own replies tell no more than their status.
-/

namespace MapGate

/-- A reply. -/
structure Reply where
  status : Nat
  headers : Headers
  body : ByteArray

namespace Reply

/-- Whether a request was successful. -/
def isSuccess (reply : Reply) : Bool := 200 ≤ reply.status && reply.status < 300

/-- A reply of plain text. -/
def plain (status : Nat) (text : String) : Reply where
  status
  headers :=
    (Headers.empty.append .contentType "text/plain; charset=utf-8".toUTF8).setContentLength
      text.utf8ByteSize
  body := text.toUTF8

/-- The reply to a request that was turned away. -/
def ofError (e : GateError) : Reply := plain e.status e.publicMessage

/-- The reply to a path that leads nowhere. -/
def unknownPath : Reply := ⟨404, .empty, ByteArray.empty⟩

/-- The reply to a path of which a part is not UTF-8. -/
def undecodable (part : String) : Reply :=
  plain 400 s!"Invalid URL: Invalid UTF-8 in \x60{part}\x60"

/-- The reply without its body, which is left out when only the headers were asked
for. -/
def withoutBody (reply : Reply) : Reply := { reply with body := ByteArray.empty }

end Reply

/-- What the renderer is sent. -/
structure RendererRequest where
  method : Method
  url : Url
  headers : Headers
  body : ByteArray

/-- The headers with an `Accept` header, which allows anything if there was none. -/
def Headers.withAccept (headers : Headers) : Headers :=
  if headers.contains .accept then headers else headers.append .accept "*/*".toUTF8

/-- What the renderer is sent for a request. The length of the body is announced
anew, and nothing that is about the client's connection goes along. -/
def RendererSettings.send (renderer : RendererSettings) (request : Request) : RendererRequest where
  method := request.method
  url := renderer.target request.params
  headers := (request.headers.withoutHopByHop.remove .contentLength).withAccept
  body := request.body

end MapGate
