import MapGate.Audit.Event
import MapGate.Audit.Timestamp
import MapGate.Json.Parser
import MapGate.Json.Printer

/-!
# Entries of the audit trail

An entry is an event with an identifier and the time at which it was recorded.
It is one line of JSON. Reading ignores members that it does not know, and
takes the members of a structure also as a list in their order.
-/

namespace MapGate

/-- An entry of the audit trail. -/
structure AuditEntry where
  id : Uuid
  timestamp : Timestamp
  event : AuditEvent

namespace AuditEntry

/-- An entry as a JSON value. -/
def toJson (entry : AuditEntry) : Json :=
  .object (("id", .string entry.id.render) :: ("timestamp", .string entry.timestamp.render) ::
    entry.event.members)

/-- The line of an entry, without its end. -/
def line (entry : AuditEntry) : String := entry.toJson.render

/-- The bytes of an entry in a file. -/
def lineBytes (entry : AuditEntry) : ByteArray := (entry.line ++ "\n").toUTF8

/-! ## Reading -/

/-- The members of a structure with the given fields. No field may occur twice. -/
def fields? (names : List String) : Json → Option (List (String × Json))
  | .object members =>
    if names.all fun name => members.countP (·.1 = name) ≤ 1 then
      some (members.filter fun member => names.contains member.1)
    else none
  | .array items => if items.length = names.length then some (names.zip items) else none
  | _ => none

/-- The text of a JSON string. -/
def text? : Json → Option String
  | .string s => some s
  | _ => none

/-- The text of a field that may be missing or null; the outer `none` stands for
anything else. -/
def optionalText? (fields : List (String × Json)) (name : String) : Option (Option String) :=
  match fields.lookup name with
  | none | some .null => some none
  | some value => (text? value).map some

/-- Reads a kind of event: its word, alone or as the key of null. -/
def kind? : Json → Option EventKind
  | .string word | .object [(word, .null)] => EventKind.ofKeyword? word
  | _ => none

/-- Reads a source. -/
def source? (value : Json) : Option EventSource := do
  let fields ← fields? ["component", "project", "username", "remote_addr", "request_id"] value
  some {
    component := ← text? (← fields.lookup "component")
    project? := ← optionalText? fields "project"
    username? := ← optionalText? fields "username"
    remoteAddress? := ← optionalText? fields "remote_addr"
    requestId? := ← optionalText? fields "request_id" }

/-- How deep the details of an entry may be nested. -/
def maxDepth : Nat := 126

/-- Reads details, the members of all objects sorted. -/
def details? (value : Json) : Option Json :=
  if value.depth ≤ maxDepth then some value.sorted else none

/-- Reads an entry. -/
def ofJson? (value : Json) : Option AuditEntry := do
  let fields ← fields? ["id", "timestamp", "event_type", "source", "details"] value
  some {
    id := ← Uuid.ofText? (← text? (← fields.lookup "id"))
    timestamp := ← Timestamp.ofText? (← text? (← fields.lookup "timestamp"))
    event := {
      kind := ← kind? (← fields.lookup "event_type")
      source := ← source? (← fields.lookup "source")
      details := ← details? (← fields.lookup "details") } }

/-- Reads the line of an entry. -/
def ofLine? (line : String) : Option AuditEntry := do ofJson? (← Json.ofText? line)

end AuditEntry

end MapGate
