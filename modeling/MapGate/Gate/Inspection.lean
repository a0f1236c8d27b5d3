import MapGate.Gate.FeatureQueryParams
import MapGate.Gate.Transaction
import MapGate.Ows.Request
import MapGate.Xml.Printer
import MapGate.Xml.Tree

/-!
# Inspection of requests

`Request.inspect` decides whether a request may go on to the renderer, and
narrows it where that is needed. Under roles any body is read as a document,
whatever the parameters claim, because the renderer takes the operation of a
posted document from its root element.
-/

namespace MapGate

/-- What the gate found out about a request that may go on. -/
structure Inspection where
  /-- What the request asks for, as far as parameters and body tell. -/
  operation : Operation
  /-- Whether the parameters or the body were narrowed. -/
  narrowed : Bool
  deriving DecidableEq

/-- The parameters that must not occur twice, since the gate and the renderer
could then read different ones. The names of a group stand for the same. -/
def decisionParameters : List (List String) :=
  [["SERVICE"], ["REQUEST"], ["LAYERS"], ["QUERY_LAYERS"], ["TYPENAME", "TYPENAMES"],
    ["PROPERTYNAME"], ["SLD"], ["SLD_BODY"]]

namespace Params

/-- How often the parameters of a group occur. -/
def countGroup (params : Params) (group : List String) : Nat :=
  (group.map params.count).foldl (· + ·) 0

/-- The first group of decision parameters that occurs more than once. -/
def repeated? (params : Params) : Option (List String) :=
  decisionParameters.find? fun group => 1 < params.countGroup group

/-- Whether the client brings a style of its own. -/
def hasStyle (params : Params) : Bool := params.contains "SLD" || params.contains "SLD_BODY"

/-- Whether a parameter lists the layers of one map in a print layout, as
`map0:LAYERS` does. -/
def listsMapLayers (name : String) : Bool :=
  ":LAYERS".utf8ByteSize < name.utf8ByteSize &&
    ":LAYERS".toList.isSuffixOf (Text.upper name).toList

end Params

namespace Check

/-- Requires that the client brings no style. -/
def noStyle (params : Params) : Check Unit :=
  require (!params.hasStyle) (.denied .clientStyle)

/-- Requires a permission on the layers that a parameter lists. -/
def requireParameter (index : LayerIndex) (params : Params) (name : String)
    (permission : Permission) : Check Unit :=
  requireAll index (params.get? name) permission

/-- Checks a document, and tells what becomes of the request. A root that is no
feature query and no transaction passes. -/
def document (index : LayerIndex) (request : Request) : Check (Inspection × Request) := do
  let document ← ofExcept ((Xml.Document.ofBytes request.body).mapError (.malformed <| .document ·))
  if document.root.localName = "GetFeature" then
    let (root, narrowed) ← getFeature index document.root
    let request := if narrowed then
        request.replaceBody { document with root }.render.toUTF8
      else request
    return (⟨.getFeature, narrowed⟩, request)
  else if document.root.localName = "Transaction" then
    transaction index document.root
    return (⟨.transaction, false⟩, request)
  else return (⟨.passThrough, false⟩, request)

/-- Checks the parameters of a request with a given operation, or its document
if the operation is one, and tells what becomes of the request. -/
def parameters (index : LayerIndex) (operation : Operation) (request : Request) :
    Check (Inspection × Request) :=
  let params := request.params
  match operation with
  | .getCapabilities | .passThrough => return (⟨operation, false⟩, request)
  | .getMap => do
    noStyle params
    requireParameter index params "LAYERS" .view
    return (⟨operation, false⟩, request)
  | .getPrint => do
    noStyle params
    requireParameter index params "LAYERS" .view
    (params.filterNames Params.listsMapLayers).forM fun (_, list) =>
      requireAll index (some list) .view
    return (⟨operation, false⟩, request)
  | .getFeatureInfo => do
    noStyle params
    requireParameter index params "QUERY_LAYERS" .query
    requireParameter index params "LAYERS" .view
    return (⟨operation, false⟩, request)
  | .getFeatureKvp => do
    let (params, narrowed) ← getFeatureParams index params
    return (⟨operation, narrowed⟩, { request with params })
  | .transactionKvp => fail (.denied .transactionInParameters)
  | .wfsDocument | .getFeature | .transaction => document index request

/-- Checks a request: its parameters, and its body if there is one. -/
def request (index : LayerIndex) (request : Request) : Check (Inspection × Request) := do
  let operation := Operation.classify request.method request.params
  let (found, request) ← parameters index operation request
  if request.body.isEmpty || operation.isDocument then return (found, request)
  else
    let (inside, request) ← document index request
    let operation := if inside.operation = .passThrough then found.operation else inside.operation
    return (⟨operation, found.narrowed || inside.narrowed⟩, request)

end Check

/-- Decides whether a request may go on, and tells what becomes of it. Without
permissions to go by, it goes on as it is. -/
def Request.inspect (request : Request) (index : LayerIndex)
    (context? : Option PermissionContext) : Except GateError (Inspection × Request) :=
  match request.params.repeated? with
  | some group => .error (.denied (.repeatedParameter group))
  | none =>
    match context? with
    | none => .ok (⟨Operation.classify request.method request.params, false⟩, request)
    | some context => ((Check.request index request).run context).map (·.1)

end MapGate
