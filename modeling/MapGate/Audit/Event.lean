import MapGate.Audit.Uuid
import MapGate.Json.Value
import MapGate.Net.SocketAddress

/-!
# Audit events

What is worth recording: a kind of event, who caused it, and details.
-/

namespace MapGate

/-- The kinds of events. -/
inductive EventKind where
  | serverStarted
  | serverStopped
  /-- A request went to the renderer as it was. -/
  | requestForwarded
  /-- A request was narrowed, or its answer rewritten. -/
  | requestRewritten
  | accessDenied
  | malformedRequest
  | projectNotFound
  | settingsInvalid
  | rendererFailed
  deriving DecidableEq

namespace EventKind

/-- All kinds of events. -/
def all : List EventKind :=
  [serverStarted, serverStopped, requestForwarded, requestRewritten, accessDenied,
    malformedRequest, projectNotFound, settingsInvalid, rendererFailed]

/-- The word for a kind in the audit trail. -/
def keyword : EventKind → String
  | serverStarted => "server_started"
  | serverStopped => "server_stopped"
  | requestForwarded => "request_forwarded"
  | requestRewritten => "request_rewritten"
  | accessDenied => "access_denied"
  | malformedRequest => "malformed_request"
  | projectNotFound => "project_not_found"
  | settingsInvalid => "settings_invalid"
  | rendererFailed => "upstream_failed"

/-- The kind that a word stands for. -/
def ofKeyword? (word : String) : Option EventKind := all.find? (·.keyword = word)

end EventKind

/-- Who caused an event, and in which request. -/
structure EventSource where
  component : String
  project? : Option String
  username? : Option String
  remoteAddress? : Option String
  requestId? : Option String
  deriving DecidableEq

namespace EventSource

/-- A part of the program as the source of an event. -/
def ofComponent (component : String) : EventSource := ⟨component, none, none, none, none⟩

/-- The source with a user name, unless it is empty. -/
def withUsername (source : EventSource) (name : String) : EventSource :=
  if name = "" then source else { source with username? := some name }

/-- The source with the address of the client. -/
def withRemoteAddress (source : EventSource) (address : SocketAddress) : EventSource :=
  { source with remoteAddress? := some address.render }

/-- The source with the identifier of the request. -/
def withRequestId (source : EventSource) (id : Uuid) : EventSource :=
  { source with requestId? := some id.render }

/-- The optional parts of a source by their names. -/
def options (source : EventSource) : List (String × Option String) :=
  [("project", source.project?), ("username", source.username?),
    ("remote_addr", source.remoteAddress?), ("request_id", source.requestId?)]

/-- A source in the audit trail, without the parts it does not have. -/
def toJson (source : EventSource) : Json :=
  .object (("component", .string source.component) ::
    source.options.filterMap fun (name, value?) => value?.map fun value => (name, .string value))

end EventSource

/-- An event. -/
structure AuditEvent where
  kind : EventKind
  source : EventSource
  details : Json

/-- An event as members of an entry. -/
def AuditEvent.members (event : AuditEvent) : List (String × Json) :=
  [("event_type", .string event.kind.keyword), ("source", event.source.toJson),
    ("details", event.details)]

end MapGate
