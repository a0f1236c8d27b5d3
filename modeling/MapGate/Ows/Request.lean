import MapGate.Http.Headers
import MapGate.Http.Target
import MapGate.Ows.Operation

/-!
# Requests on their way to the renderer

A request is read as a whole before anything is decided about it.
-/

namespace MapGate

/-- A request of a client, or what the gate has made of it. -/
structure Request where
  method : Method
  params : Params
  headers : Headers
  body : ByteArray
  /-- The path by which the client reached the gate. -/
  publicPath : String

namespace Request

/-- The request with the given parts. -/
def ofTarget (method : Method) (target : Target) (headers : Headers) (body : ByteArray) :
    Request where
  method
  params := .ofQuery (target.query?.getD "")
  headers
  body
  publicPath := target.path

/-- The request with another body, and the headers announcing its length. -/
def replaceBody (request : Request) (body : ByteArray) : Request :=
  { request with body, headers := request.headers.setContentLength body.size }

end Request

end MapGate
