import MapGate.Http.Method
import MapGate.Ows.Params

/-!
# Operations

What a request asks of the map service, as far as the gate tells operations
apart. The parameters `SERVICE` and `REQUEST` name it; only of a document that
is posted to the feature service the parameters say nothing.
-/

namespace MapGate

/-- An operation of the map service. -/
inductive Operation where
  /-- A capability listing of the map or the feature service. -/
  | getCapabilities
  | getMap
  /-- A print layout, which renders layers like a map. -/
  | getPrint
  /-- The features at a point of a rendered map. -/
  | getFeatureInfo
  /-- A feature query in parameters. -/
  | getFeatureKvp
  /-- A feature transaction in parameters, which is never supported. -/
  | transactionKvp
  /-- A document for the feature service, whose root names the operation. -/
  | wfsDocument
  /-- A feature query in a document. -/
  | getFeature
  /-- A feature transaction in a document. -/
  | transaction
  /-- Anything else. -/
  | passThrough
  deriving DecidableEq

namespace Operation

/-- The operation of a request by its method and parameters. -/
def classify (method : Method) (params : Params) : Operation :=
  let service := (params.get? "SERVICE").map fun s => Text.upper (Text.trim s)
  let request := (params.get? "REQUEST").map fun s => Text.lower (Text.trim s)
  if service = some "WMS" then
    if request = some "getcapabilities" then getCapabilities
    else if request = some "getmap" then getMap
    else if request = some "getprint" then getPrint
    else if request = some "getfeatureinfo" then getFeatureInfo
    else passThrough
  else if service = some "WFS" then
    if request = some "getcapabilities" then getCapabilities
    else if method = .post then wfsDocument
    else if request = some "getfeature" then getFeatureKvp
    else if request = some "transaction" then transactionKvp
    else passThrough
  else passThrough

/-- Whether the body of the request decides about the operation. -/
def isDocument : Operation → Bool
  | wfsDocument | getFeature | transaction => true
  | _ => false

/-- The name of an operation in logs and the audit trail, which does not tell
how the operation was written. -/
def name : Operation → String
  | getCapabilities => "GetCapabilities"
  | getMap => "GetMap"
  | getPrint => "GetPrint"
  | getFeatureInfo => "GetFeatureInfo"
  | getFeatureKvp | getFeature => "GetFeature"
  | transactionKvp | transaction => "Transaction"
  | wfsDocument => "WfsDocument"
  | passThrough => "PassThrough"

end Operation

end MapGate
