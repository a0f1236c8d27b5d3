import MapGate.Audit.Event
import MapGate.Capabilities.Rewriting
import MapGate.Gate.Caller
import MapGate.Gate.Inspection
import MapGate.Gateway.Exchange
import MapGate.Gateway.Route
import MapGate.Policy.Store

/-!
# Handling of requests

The gateway lets a request for a project pass or turns it away. One that passes
goes to the renderer, and what comes back goes to the client, capability
documents with their links pointed at the gate. Each request for a project
leaves one event.
-/

namespace MapGate

/-- Where the renderer finds a project. -/
def Project.location (project : Project) : ProjectLocation :=
  ⟨project.owner, project.name, project.file⟩

/-- The gateway. -/
structure Gateway where
  /-- Finds the project of an owner. -/
  load : (owner name : String) → Except StoreError Project
  renderer : RendererSettings
  /-- The address at which clients reach the gate, if it is not the renderer's. -/
  publicBase? : Option Url
  maxBodyBytes : Nat

/-- A request that may go on to the renderer. -/
structure Passage where
  inspection : Inspection
  request : Request

/-- What came of a request. -/
structure Outcome where
  reply : Reply
  /-- What the renderer was sent, if anything. -/
  sent? : Option RendererRequest
  event? : Option AuditEvent

namespace Gateway

/-- The permissions that bind a user of some settings, if there are any. -/
def permissions? (settings : ProjectSettings) (user : User) :
    Except GateError (Option PermissionContext) :=
  match settings.accessOf user with
  | .denied reason => .error (.denied (.access reason))
  | .roles context => .ok (some context)
  | .unchecked => .ok none

/-- The request with what only a plain answer can serve: capability documents must
not come compressed. -/
def askPlain (operation : Operation) (request : Request) : Request :=
  if operation = .getCapabilities then
    { request with headers := request.headers.remove .acceptEncoding }
  else request

/-- Decides whether a request of a user for a project may go on. -/
def vet (gateway : Gateway) (owner name : String) (user : User) (request : Request) :
    Except GateError Passage := do
  let project ← (gateway.load owner name).mapError StoreError.toGateError
  let context? ← permissions? project.settings user
  if gateway.maxBodyBytes < request.body.size then .error .tooLarge
  else
    let directed := gateway.renderer.direct project.location request
    let (inspection, request) ← directed.inspect project.layers context?
    return ⟨inspection, askPlain inspection.operation request⟩

/-- The rewritten document in a successful reply to a request for capabilities. -/
def rewritten? (gateway : Gateway) (passage : Passage) (reply : Reply) : Option String :=
  if passage.inspection.operation = .getCapabilities && reply.isSuccess then
    (String.fromUTF8? reply.body).bind
      (Capabilities.rewrite? gateway.publicBase? passage.request.publicPath)
  else none

/-- What the client gets of a reply of the renderer. -/
def passOn (gateway : Gateway) (passage : Passage) (reply : Reply) : Reply :=
  let body := match gateway.rewritten? passage reply with
    | some document => document.toUTF8
    | none => reply.body
  { reply with headers := reply.headers.withoutHopByHop.setContentLength body.size, body }

/-- The kind of event that a passed request is. -/
def passedKind (gateway : Gateway) (passage : Passage) (reply : Reply) : EventKind :=
  if passage.inspection.narrowed || (gateway.rewritten? passage reply).isSome then
    .requestRewritten
  else .requestForwarded

end Gateway

/-- The kind of event that a refused request is. -/
def GateError.kind : GateError → EventKind
  | denied _ => .accessDenied
  | projectNotFound _ => .projectNotFound
  | malformed _ | tooLarge => .malformedRequest
  | rendererFailed _ => .rendererFailed
  | settingsUnavailable _ => .settingsInvalid

namespace Outcome

/-- What comes of a request that is turned away. -/
def refused (source : EventSource) (e : GateError) (sent? : Option RendererRequest) : Outcome where
  reply := .ofError e
  sent?
  event? := some ⟨e.kind, source,
    .object [("detail", .string e.detail), ("status", .integer e.status)]⟩

/-- What comes of a request that the renderer has answered. -/
def passed (gateway : Gateway) (source : EventSource) (passage : Passage)
    (sent : RendererRequest) (reply : Reply) : Outcome where
  reply := gateway.passOn passage reply
  sent? := some sent
  event? := some ⟨gateway.passedKind passage reply, source,
    .object [("operation", .string passage.inspection.operation.name),
      ("status", .integer reply.status)]⟩

/-- The outcome as the client of a request with some method sees it. -/
def seenBy (outcome : Outcome) (method : Method) : Outcome :=
  if method = .head then { outcome with reply := outcome.reply.withoutBody } else outcome

end Outcome

namespace Gateway

/-- The part of the program that requests go through. -/
def component : String := "ows-proxy"

/-- The source of the event of a request. -/
def eventSource (owner name : String) (user : User) (peer : SocketAddress) (id : Uuid) :
    EventSource :=
  (({ EventSource.ofComponent component with
      project? := some s!"{owner}/{name}" }.withUsername user.name).withRemoteAddress
    peer).withRequestId id

/-- Handles a request for a project. `reach` is the way to the renderer. -/
def handleProject (gateway : Gateway) (reach : RendererRequest → Except String Reply)
    (owner name : String) (user : User) (source : EventSource) (request : Request) : Outcome :=
  match gateway.vet owner name user request with
  | .error e => .refused source e none
  | .ok passage =>
    let sent := gateway.renderer.send passage.request
    match reach sent with
    | .error reason => .refused source (.rendererFailed reason) (some sent)
    | .ok reply => .passed gateway source passage sent reply

/-- Handles a request. -/
def handle (gateway : Gateway) (reach : RendererRequest → Except String Reply)
    (peer : SocketAddress) (id : Uuid) (request : Request) : Outcome :=
  let outcome : Outcome := match Route.ofPath request.publicPath with
    | .unknown => ⟨.unknownPath, none, none⟩
    | .undecodable part => ⟨.undecodable part, none, none⟩
    | .project owner name =>
      let user := request.headers.caller gateway.renderer.identityHeader
      gateway.handleProject reach owner name user (eventSource owner name user peer id) request
  outcome.seenBy request.method

end Gateway

end MapGate
