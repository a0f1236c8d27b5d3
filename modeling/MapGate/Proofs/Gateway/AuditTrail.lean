import MapGate.Proofs.Audit.Trail
import MapGate.Proofs.Gateway.Events

/-!
# The audit trail

Whatever order handlers and task work in, the file gets one line for each entry, in the
order in which they were sent, and the lines are read back as the entries unless details
are nested too deep. Each request for a project leaves one of them (`audit_trail`).
-/

namespace MapGate

open Relation (ReflTransGen)
open Text (lineFeed)

/-- When all handlers have sent what they had to and the task has ended, the file is what
it was, followed by one line for each entry in the order of the queue. No entry is lost or
there twice, and those of a handler are in its own order. Cut at the line feeds, the new
part is read back as the entries, but for those with details that are nested too deep. A
request for a project adds one entry, which tells what came of it and can be read back. -/
theorem audit_trail {ι : Type} [DecidableEq ι] {capacity : Nat} {path : Path} {files : FileTree}
    {start : Sink} {entries : ι → List AuditEntry} {trail : Trail ι}
    (started : Sink.start path files = .ok start)
    (previous : Text.AtLineStart (files.bytes path))
    (run : ReflTransGen (Trail.Step capacity) ⟨entries, [], start⟩ trail)
    (done : ∀ i, trail.unsent i = [])
    (plain : ∀ i, ∀ entry ∈ entries i, entry.IsPlain) :
    let added := trail.lines.flatMap (· ++ [lineFeed])
    (∃ content, trail.sink.finish.read? path = some content ∧
      content.data.toList = files.bytes path ++ added ∧
      content.data.toList.splitOn lineFeed =
        ((files.bytes path).splitOn lineFeed).dropLast ++ trail.lines ++ [[]]) ∧
    (∀ i, Trail.sentBy trail.sent i = entries i) ∧
    added.splitOn lineFeed = trail.lines ++ [[]] ∧
    (added.splitOn lineFeed).dropLast.map AuditEntry.ofBytes? = (trail.sent.map fun (_, entry) =>
      if entry.event.details.depth ≤ AuditEntry.maxDepth then some entry else none) ∧
    ∀ (session : Session) (stamp : AuditEvent → AuditEntry)
      (reach : RendererRequest → Except String Reply) (peer : SocketAddress) (id : Uuid)
      (request : Request) (owner name : String),
      Route.ofPath request.publicPath = .project owner name →
      ∃ event, session.Records stamp reach peer id owner name request event := by
  intro added
  have recorded := Trail.recorded_of_run started run
  have plain : ∀ sent ∈ trail.sent, sent.2.IsPlain :=
    fun sent hs => plain sent.1 sent.2 (recorded.mem hs)
  have oneLine := Trail.lineFeed_notMem_lines plain
  have cut : added.splitOn lineFeed = trail.lines ++ [[]] := Text.splitOn_lines oneLine
  refine ⟨?_, fun i => ?_, cut, ?_, fun session stamp reach peer id request owner name route =>
    session.exists_records stamp reach peer id route⟩
  · obtain ⟨content, found, due⟩ := recorded.read?_finish
    exact ⟨content, found, due, due ▸ Text.splitOn_append_lines previous oneLine⟩
  · rw [← recorded.order i, done i, List.append_nil]
  · rw [cut, List.dropLast_concat, Trail.map_ofBytes?_lines plain]

/-! ## Deep details -/

/-- Lists in each other. -/
def Json.nested : Nat → Json
  | 0 => null
  | n + 1 => array [nested n]

theorem Json.isWhole_nested (n : Nat) : (nested n).IsWhole := by
  induction n with
  | zero => trivial
  | succ n ih => exact ⟨ih, trivial⟩

theorem Json.sorted_nested (n : Nat) : (nested n).sorted = nested n := by
  induction n with
  | zero => rfl
  | succ n ih => rw [nested, sorted, sortedItems, ih, sortedItems]

theorem Json.depth_nested (n : Nat) : (nested n).depth = n := by
  induction n with
  | zero => rfl
  | succ n ih => rw [nested, depth, depthItems, ih, depthItems, Nat.max_zero]

/-- A sink that was started on some files. -/
def sinkOn (files : FileTree) : Sink :=
  ⟨[], ⟨["audit.jsonl"], ByteArray.empty⟩, files.append ["audit.jsonl"] ByteArray.empty⟩

/-- An entry of some moment. -/
def entryOf (event : AuditEvent) : AuditEntry where
  id := ⟨[0x67, 0xe5, 0x50, 0x44, 0x10, 0xb1, 0x42, 0x6f, 0x92, 0x47, 0xbb, 0x68, 0x0e, 0x5f, 0xe0,
    0xc8], rfl⟩
  timestamp := ⟨⟨2024, 2, 29, by decide⟩, ⟨12, by decide⟩, ⟨34, by decide⟩, ⟨56, by decide⟩,
    ⟨789000000, by decide⟩⟩
  event

/-- An entry with details that are nested one list too deep. -/
def deepEntry : AuditEntry := entryOf ⟨.accessDenied, .ofComponent "x", .nested 127⟩

/-- The entry is sent and written, and its line is not read back. -/
theorem deepEntry_unread : deepEntry.IsPlain ∧ ∃ start trail content,
    Sink.start ["audit.jsonl"] .empty = .ok start ∧
    ReflTransGen (Trail.Step 1) ⟨fun _ : Unit => [deepEntry], [], start⟩ trail ∧
    trail.unsent () = [] ∧ trail.sent = [((), deepEntry)] ∧
    trail.sink.finish.read? ["audit.jsonl"] = some content ∧
    content.data.toList.splitOn lineFeed = [Text.bytes deepEntry.line, []] ∧
    AuditEntry.ofBytes? (Text.bytes deepEntry.line) = none := by
  have plain : deepEntry.IsPlain := ⟨Json.isWhole_nested 127, Json.sorted_nested 127⟩
  have started : Sink.start ["audit.jsonl"] .empty = .ok (sinkOn .empty) := rfl
  have run := ReflTransGen.single <| @Trail.Step.send Unit _ 1
    ⟨fun _ => [deepEntry], [], sinkOn .empty⟩ () deepEntry [] rfl Nat.one_pos
  obtain ⟨content, found, due⟩ := (Trail.recorded_of_run started run).read?_finish
  refine ⟨plain, _, _, content, started, run, rfl, rfl, found, ?_, ?_⟩
  · rw [due]
    refine Text.splitOn_append_lines (.inl rfl) ?_
    exact Trail.lineFeed_notMem_lines (List.forall_mem_singleton.2 plain)
  · rw [AuditEntry.ofBytes?_bytes, AuditEntry.ofLine?_line plain]
    exact if_neg (by rw [deepEntry, entryOf, Json.depth_nested]; decide)

/-! ## Two handlers -/

/-- A denial whose text has quotes and a line feed. -/
def denialEntry : AuditEntry :=
  entryOf ⟨.accessDenied, .ofComponent "ows-proxy",
    .object [("detail", .string "layer \"a\nb\""), ("status", .integer 403)]⟩

/-- The entry of a request for which the renderer was not reached. -/
def failureEntry : AuditEntry :=
  entryOf ⟨.rendererFailed, .ofComponent "ows-proxy",
    .object [("detail", .string "no route"), ("status", .integer 502)]⟩

/-- What two handlers have to send. -/
def twoEntries : Bool → List AuditEntry
  | true => [failureEntry]
  | false => [denialEntry]

/-- Files with a trail of one line, and the settings of a project. -/
def cityFiles : FileTree :=
  ⟨[(["audit.jsonl"], .file "started\n".toUTF8), (["srv", "alice", "city", "access.yaml"],
    .file "project_file: city.qgs\naccess: \x7bmode: public\x7d\n".toUTF8)]⟩

/-- A session of the gateway to the project. -/
def citySession : Session where
  config := { projectsRoot := "/srv" }
  settings := ⟨Gateway.cityGateway.renderer, none, 100, 60⟩
  address := .v4 (.ofNat 0) 8090
  sink := sinkOn cityFiles
  log := []

/-- One entry is taken before the other is sent. -/
theorem run_twoEntries : ∃ sink, ReflTransGen (Trail.Step 1) ⟨twoEntries, [], sinkOn cityFiles⟩
    ⟨fun _ => [], [(true, failureEntry), (false, denialEntry)], sink⟩ := by
  have first := @Trail.Step.send Bool _ 1 ⟨twoEntries, [], sinkOn cityFiles⟩ true failureEntry [] rfl
    Nat.one_pos
  have second := @Trail.Step.send Bool _ 1 ⟨Function.update twoEntries true [],
    [(true, failureEntry)], ((sinkOn cityFiles).step (.send failureEntry)).step .take⟩
    false denialEntry [] rfl Nat.one_pos
  have all : Function.update (Function.update twoEntries true []) false [] = fun _ => [] :=
    funext fun i => by cases i <;> rfl
  rw [all] at second
  exact ⟨_, ((ReflTransGen.single first).tail .take).tail second⟩

/-- The entries come after the line that was there, as they were sent, and the event of a
request is that the renderer failed. -/
theorem audit_trail_city : ∃ start trail content,
    Sink.start ["audit.jsonl"] cityFiles = .ok start ∧
    ReflTransGen (Trail.Step 1) ⟨twoEntries, [], start⟩ trail ∧
    trail.sink.finish.read? ["audit.jsonl"] = some content ∧
    content.data.toList.splitOn lineFeed =
      [Text.bytes "started", Text.bytes failureEntry.line, Text.bytes denialEntry.line, []] ∧
    trail.lines.map AuditEntry.ofBytes? = [some failureEntry, some denialEntry] ∧
    ∃ event, (citySession.gateway.handle (fun _ => .error "no route") (.v4 (.ofNat 0) 40000)
        failureEntry.id Gateway.cityRequest).event? = some event ∧
      event.kind = .rendererFailed := by
  have started : Sink.start ["audit.jsonl"] cityFiles = .ok (sinkOn cityFiles) := rfl
  have before : (cityFiles.bytes ["audit.jsonl"]).splitOn lineFeed = [Text.bytes "started", []] := by
    decide +kernel
  have plain : ∀ i, ∀ entry ∈ twoEntries i, entry.IsPlain := by
    rintro (_ | _) entry he <;> obtain rfl := List.mem_singleton.1 he <;>
    exact AuditEntry.isPlain_of_isReport (.mk (.inl rfl) (by decide))
  obtain ⟨sink, run⟩ := run_twoEntries
  obtain ⟨⟨content, found, -, cut⟩, -, one, read, handled⟩ := audit_trail started
    (.inr (by decide +kernel)) run (fun _ => rfl) plain
  rw [before] at cut
  rw [one, List.dropLast_concat] at read
  refine ⟨_, _, content, started, run, found, cut, read, ?_⟩
  have city : citySession.gateway = Gateway.cityGateway := rfl
  obtain ⟨event, recorded⟩ := handled citySession entryOf (fun _ => .error "no route")
    (.v4 (.ofNat 0) 40000) failureEntry.id Gateway.cityRequest "alice" "city" (by decide +kernel)
  refine ⟨event, recorded.left, ?_⟩
  have kind := recorded.tells
  rw [city] at kind
  generalize event.kind = found at kind
  obtain ⟨project, asked, admits, -⟩ := Gateway.admits_city
  cases kind with
  | refused refuses => exact (admits.not_refuses refuses).elim
  | failed => rfl
  | forwarded _ answers => cases answers
  | rewritten _ answers => cases answers

end MapGate
