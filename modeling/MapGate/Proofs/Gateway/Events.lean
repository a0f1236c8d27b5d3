import MapGate.Proofs.Audit.Lines
import MapGate.Proofs.Gateway.Forwarding
import MapGate.Service.Session

/-!
# One event for each request

A request for a project leaves one event, of a kind that tells what came of it
(`Gateway.Tells`, `Gateway.exists_event`). Its details are a text and a status
(`Json.IsReport`), so its entry can be read back (`AuditEntry.ofLine?_of_isReport`). A session
sends one entry for each such request (`Session.exists_records`).
-/

namespace MapGate

/-! ## Details -/

/-- The details of an event that has to do with a reply: a text and a status. -/
inductive Json.IsReport : Json → Prop where
  | mk {key text : String} {status : Nat} (name : key = "detail" ∨ key = "operation")
    (bound : status < 1000) :
    IsReport (.object [(key, .string text), ("status", .integer status)])

namespace Json.IsReport

variable {details : Json}

theorem isWhole (h : IsReport details) : details.IsWhole := by
  cases h with
  | mk name bound =>
    have small : 1000 ≤ maxWord := by decide
    exact ⟨trivial, ⟨by omega, by omega⟩, trivial⟩

theorem sorted (h : IsReport details) : details.sorted = details := by
  cases h with
  | mk name bound => rcases name with rfl | rfl <;> rfl

theorem depth (h : IsReport details) : details.depth = 1 := by
  cases h
  rfl

end Json.IsReport

namespace AuditEntry

variable {entry : AuditEntry}

theorem isPlain_of_isReport (report : entry.event.details.IsReport) : entry.IsPlain :=
  ⟨report.isWhole, report.sorted⟩

/-- An entry with such details is read back from its line. -/
theorem ofLine?_of_isReport (report : entry.event.details.IsReport) :
    ofLine? entry.line = some entry := by
  rw [ofLine?_line (isPlain_of_isReport report), report.depth, if_pos (by decide)]

end AuditEntry

theorem GateError.status_lt (e : GateError) : e.status < 1000 := by
  unfold status
  split <;> decide

/-! ## Kinds -/

theorem Outcome.event?_seenBy (outcome : Outcome) (method : Method) :
    (outcome.seenBy method).event? = outcome.event? := by
  rw [seenBy]
  split <;> rfl

namespace Gateway

variable {gateway : Gateway} {owner name : String} {request : Request} {project : Project}
  {inspection : Inspection} {left : Request} {reach : RendererRequest → Except String Reply}

/-- The kind of event that tells what came of a request. -/
inductive Tells (gateway : Gateway) (reach : RendererRequest → Except String Reply)
    (owner name : String) (request : Request) : EventKind → Prop where
  | refused {e : GateError} (refuses : gateway.Refuses owner name (gateway.caller request) request e) :
    Tells gateway reach owner name request e.kind
  | failed {project : Project} {inspection : Inspection} {left : Request} {reason : String}
    (admits : gateway.Admits owner name (gateway.caller request) request project inspection left)
    (fails : reach (gateway.toSend inspection left) = .error reason) :
    Tells gateway reach owner name request (GateError.rendererFailed reason).kind
  /-- Neither was the request narrowed nor its answer rewritten. -/
  | forwarded {project : Project} {inspection : Inspection} {left : Request} {reply : Reply}
    (admits : gateway.Admits owner name (gateway.caller request) request project inspection left)
    (answers : reach (gateway.toSend inspection left) = .ok reply)
    (whole : inspection.narrowed = false)
    (kept : gateway.rewritten? ⟨inspection, askPlain inspection.operation left⟩ reply = none) :
    Tells gateway reach owner name request .requestForwarded
  | rewritten {project : Project} {inspection : Inspection} {left : Request} {reply : Reply}
    (admits : gateway.Admits owner name (gateway.caller request) request project inspection left)
    (answers : reach (gateway.toSend inspection left) = .ok reply)
    (changed : inspection.narrowed = true ∨
      gateway.rewritten? ⟨inspection, askPlain inspection.operation left⟩ reply ≠ none) :
    Tells gateway reach owner name request .requestRewritten

theorem tells_passedKind {reply : Reply}
    (admits : gateway.Admits owner name (gateway.caller request) request project inspection left)
    (answers : reach (gateway.toSend inspection left) = .ok reply) :
    gateway.Tells reach owner name request
      (gateway.passedKind ⟨inspection, askPlain inspection.operation left⟩ reply) := by
  rw [passedKind]
  split
  · rename_i changed
    rw [Bool.or_eq_true, Option.isSome_iff_ne_none] at changed
    exact .rewritten admits answers changed
  · rename_i same
    rw [Bool.or_eq_true, not_or, Bool.not_eq_true, Option.not_isSome_iff_eq_none] at same
    exact .forwarded admits answers same.1 same.2

/-- A request for a project leaves one event. Its details are a report if the statuses of
the renderer's replies have three digits. -/
theorem exists_event (reach : RendererRequest → Except String Reply) (peer : SocketAddress)
    (id : Uuid) (route : Route.ofPath request.publicPath = .project owner name) :
    ∃ event, (gateway.handle reach peer id request).event? = some event ∧
      gateway.Tells reach owner name request event.kind ∧
      ((∀ sent reply, reach sent = .ok reply → reply.status < 1000) → event.details.IsReport) := by
  rw [handle_of_route reach peer id route, Outcome.event?_seenBy]
  rcases admits_or_refuses gateway owner name (gateway.caller request) request with admits | refuses
  · obtain ⟨project, inspection, left, admits⟩ := admits
    cases answer : reach (gateway.toSend inspection left) with
    | error reason =>
      rw [handleProject_of_error admits answer]
      exact ⟨_, rfl, .failed admits answer, fun _ => .mk (.inl rfl) (GateError.status_lt _)⟩
    | ok reply =>
      rw [handleProject_of_ok admits answer]
      exact ⟨_, rfl, tells_passedKind admits answer, fun bound => .mk (.inr rfl) (bound _ _ answer)⟩
  · obtain ⟨e, refuses⟩ := refuses
    rw [handleProject_of_refuses refuses]
    exact ⟨_, rfl, .refused refuses, fun _ => .mk (.inl rfl) e.status_lt⟩

end Gateway

/-- A session records a request as an event: it sends one entry for it, of a kind that tells
what came of the request. The entry is read back from its line if the renderer's statuses
have three digits. -/
structure Session.Records (session : Session) (stamp : AuditEvent → AuditEntry)
    (reach : RendererRequest → Except String Reply) (peer : SocketAddress) (id : Uuid)
    (owner name : String) (request : Request) (event : AuditEvent) : Prop where
  left : (session.gateway.handle reach peer id request).event? = some event
  tells : session.gateway.Tells reach owner name request event.kind
  sends : (session.handle stamp reach peer id request).2.sink =
    session.sink.step (.send (stamp event))
  readBack : (∀ sent reply, reach sent = .ok reply → reply.status < 1000) →
    (stamp event).event = event →
    AuditEntry.ofBytes? (Text.bytes (stamp event).line) = some (stamp event)

theorem Session.exists_records (session : Session) (stamp : AuditEvent → AuditEntry)
    (reach : RendererRequest → Except String Reply) (peer : SocketAddress) (id : Uuid)
    {owner name : String} {request : Request}
    (route : Route.ofPath request.publicPath = .project owner name) :
    ∃ event, session.Records stamp reach peer id owner name request event := by
  obtain ⟨event, left, tells, report⟩ := session.gateway.exists_event reach peer id route
  refine ⟨event, left, tells, ?_, fun statuses stamped => ?_⟩
  · simp only [handle, left]
  · rw [AuditEntry.ofBytes?_bytes]
    refine AuditEntry.ofLine?_of_isReport ?_
    rw [stamped]
    exact report statuses

end MapGate
