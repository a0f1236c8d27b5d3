import MapGate.Audit.Entry
import MapGate.Proofs.Audit.Identifiers
import MapGate.Proofs.Audit.Timestamps
import MapGate.Proofs.Json.ReadBack
import MapGate.Proofs.Text.Bytes

/-!
# Lines of the audit trail read back

An entry is one line whatever its texts say (`lineFeed_notMem_line`), and the line is read
back as the entry, if its details hold no decimal fractions and are not nested too deep
(`ofLine?_line`).
-/

namespace MapGate

theorem EventKind.ofKeyword?_keyword (kind : EventKind) : ofKeyword? kind.keyword = some kind := by
  cases kind <;> decide

namespace AuditEntry

variable {entry : AuditEntry}

theorem source?_toJson (source : EventSource) : source? source.toJson = some source := by
  obtain ⟨component, project?, username?, address?, request?⟩ := source
  cases project? <;> cases username? <;> cases address? <;> cases request? <;> rfl

theorem isWhole_source (source : EventSource) : source.toJson.IsWhole := by
  refine Json.membersAreWhole_iff.2 (List.forall_mem_cons.2 ⟨trivial, fun member hm => ?_⟩)
  obtain ⟨⟨name, value?⟩, -, hm⟩ := List.mem_filterMap.1 hm
  obtain ⟨value, -, rfl⟩ := Option.map_eq_some_iff.1 hm
  trivial

theorem isWhole_toJson (whole : entry.event.details.IsWhole) : entry.toJson.IsWhole := by
  refine Json.membersAreWhole_iff.2 ?_
  simp only [AuditEvent.members, List.forall_mem_cons, List.not_mem_nil, false_imp_iff, implies_true]
  exact ⟨trivial, trivial, trivial, isWhole_source _, whole, trivial⟩

/-- The members of an entry. -/
def members (entry : AuditEntry) : List (String × Json) :=
  ("id", .string entry.id.render) :: ("timestamp", .string entry.timestamp.render) ::
    entry.event.members

theorem fields?_toJson (entry : AuditEntry) :
    fields? ["id", "timestamp", "event_type", "source", "details"] entry.toJson =
      some entry.members := rfl

/-- The fields of an entry are read back, the details up to their order. -/
theorem ofJson?_toJson (entry : AuditEntry) :
    ofJson? entry.toJson = (details? entry.event.details).map fun details =>
      { entry with event := { entry.event with details } } := by
  have id : entry.members.lookup "id" = some (.string entry.id.render) := rfl
  have timestamp : entry.members.lookup "timestamp" = some (.string entry.timestamp.render) := rfl
  have kind : entry.members.lookup "event_type" = some (.string entry.event.kind.keyword) := rfl
  have source : entry.members.lookup "source" = some entry.event.source.toJson := rfl
  have details : entry.members.lookup "details" = some entry.event.details := rfl
  have kind? : ∀ word, kind? (.string word) = EventKind.ofKeyword? word := fun _ => rfl
  simp only [ofJson?, fields?_toJson, id, timestamp, kind, source, details, text?, kind?,
    Option.bind_eq_bind, Option.bind_some, Uuid.ofText?_render, Timestamp.ofText?_render,
    EventKind.ofKeyword?_keyword, source?_toJson]
  cases details? entry.event.details <;> rfl

/-- The details of an entry have no decimal fractions, and the members of their objects
are in order. -/
structure IsPlain (entry : AuditEntry) : Prop where
  whole : entry.event.details.IsWhole
  sorted : entry.event.details.sorted = entry.event.details

/-- The line of an entry is read back as the entry, unless its details are nested too deep. -/
theorem ofLine?_line (plain : entry.IsPlain) :
    ofLine? entry.line = if entry.event.details.depth ≤ maxDepth then some entry else none := by
  rw [ofLine?, line, Json.ofText?_render (isWhole_toJson plain.whole)]
  show ofJson? entry.toJson = _
  rw [ofJson?_toJson, details?, plain.sorted]
  split <;> rfl

/-- Reads an entry from the bytes of its line. -/
def ofBytes? (line : List UInt8) : Option AuditEntry :=
  (String.fromUTF8? ⟨line.toArray⟩).bind ofLine?

theorem ofBytes?_bytes (line : String) : ofBytes? (Text.bytes line) = ofLine? line := by
  rw [ofBytes?, Text.bytes, Array.toArray_toList]
  show (String.fromUTF8? line.toUTF8).bind _ = _
  rw [Text.fromUTF8?_toUTF8, Option.bind_some]

/-- An entry is on one line. -/
theorem lineFeed_notMem_line (plain : entry.IsPlain) :
    Text.lineFeed ∉ Text.bytes entry.line := by
  refine Text.lineFeed_notMem ?_
  rw [line, Json.render, String.toList_ofList]
  exact Json.le_of_mem_renderChars _ (isWhole_toJson plain.whole)

theorem toList_lineBytes (entry : AuditEntry) :
    entry.lineBytes.data.toList = Text.bytes entry.line ++ [Text.lineFeed] :=
  Text.bytes_lineEnd entry.line

end AuditEntry

end MapGate
