import Mathlib.Data.List.Basic
import Mathlib.Logic.Function.Basic
import Mathlib.Logic.Relation
import MapGate.Audit.Sink
import MapGate.Proofs.Audit.Lines

/-!
# What a sink leaves in its file

Handlers send their entries through a queue of limited length, while the task takes them
from there and writes now and then, in any order of events (`Trail.Step`). The bytes that
are due in the file (`Sink.due`) are those in it, those that wait in the journal and those
of the entries in the queue: only a send adds to them (`due_send`, `due_take`, `due_flush`,
`due_spill`), and at the end they are in the file (`Sink.read?_finish`). So the file gets
the entries as they were sent (`Trail.recorded_of_run`). No handler waits in vain for room
in the queue (`Trail.exists_sent`).
-/

namespace MapGate

/-! ## Files -/

namespace FileTree

variable {files : FileTree} {path other : Path}

/-- The bytes of the file at a path, none if there is no file. -/
def bytes (files : FileTree) (path : Path) : List UInt8 :=
  ((files.read? path).getD ByteArray.empty).data.toList

theorem read?_append (files : FileTree) (path : Path) (b : ByteArray) :
    (files.append path b).read? path = some ((files.read? path).getD ByteArray.empty ++ b) := by
  simp only [append, put, read?, get?, List.lookup_cons_self]

theorem bytes_append (files : FileTree) (path : Path) (b : ByteArray) :
    (files.append path b).bytes path = files.bytes path ++ b.data.toList := by
  rw [bytes, read?_append, Option.getD_some, ByteArray.data_append, Array.toList_append, bytes]

theorem get?_put_of_ne {entry : FileEntry} (ne : path ≠ other) :
    (files.put other entry).get? path = files.get? path := by
  rw [get?, put, List.lookup_cons, beq_false_of_ne ne, get?]
  induction files.entries with
  | nil => rfl
  | cons first entries ih =>
    obtain ⟨place, found⟩ := first
    rw [List.lookup_cons, List.filter_cons]
    by_cases same : place = other
    · subst same
      simp only [ne_eq, not_true_eq_false, decide_false, Bool.false_eq_true, if_false, ih,
        beq_false_of_ne ne]
    · simp only [ne_eq, same, not_false_eq_true, decide_true, if_true, List.lookup_cons, ih]

/-- Making a directory changes no file elsewhere. -/
theorem bytes_makeDirectory? {made : FileTree} (h : files.makeDirectory? other = some made)
    (ne : path ≠ other) : made.bytes path = files.bytes path := by
  rw [makeDirectory?] at h
  split at h
  · cases h
  · split at h
    · cases h; rfl
    · cases h
      rw [bytes, read?, get?_put_of_ne ne, ← read?, bytes]

end FileTree

/-! ## Sinks -/

/-- An open journal has nothing that is not in its file, and has left the file as it was. -/
theorem Journal.of_openAt {path : Path} {files opened : FileTree} {journal : Journal}
    (h : openAt path files = .ok (journal, opened)) :
    journal = ⟨path, ByteArray.empty⟩ ∧ opened.bytes path = files.bytes path := by
  rw [openAt] at h
  split at h
  · cases h
  · rename_i made directory
    split at h
    · cases h
    · rename_i notDirectory
      cases h
      -- The root is a directory, so the file is not its own directory.
      have ne : path ≠ path.dropLast := by
        intro e
        have short := congrArg List.length e
        rw [List.length_dropLast] at short
        have : path = [] := List.length_eq_zero_iff.1 (by omega)
        exact notDirectory (by rw [this]; rfl)
      refine ⟨rfl, ?_⟩
      rw [FileTree.bytes_append, FileTree.bytes_makeDirectory? directory ne]
      exact List.append_nil _

namespace Sink

variable {sink : Sink} {entry : AuditEntry}

/-- The bytes that the file is to have when all that was sent is in it. -/
def due (sink : Sink) : List UInt8 :=
  sink.files.bytes sink.journal.path ++ sink.journal.pending.data.toList ++
    sink.queue.flatMap fun entry => entry.lineBytes.data.toList

/-- A journal that is full writes the front part of its bytes. -/
def spill (sink : Sink) (front back : ByteArray) : Sink :=
  { sink with
    journal := { sink.journal with pending := back }
    files := sink.files.append sink.journal.path front }

theorem of_start {path : Path} {files : FileTree} (h : start path files = .ok sink) :
    sink.journal.path = path ∧ sink.due = files.bytes path := by
  rw [start] at h
  cases opening : Journal.openAt path files with
  | error e => rw [opening] at h; cases h
  | ok opened =>
    obtain ⟨journal, opened⟩ := opened
    rw [opening] at h
    cases h
    obtain ⟨rfl, same⟩ := Journal.of_openAt opening
    refine ⟨rfl, ?_⟩
    rw [due, ← same]
    simp

theorem due_send (sink : Sink) (entry : AuditEntry) :
    (sink.step (.send entry)).due = sink.due ++ entry.lineBytes.data.toList := by
  simp only [step, due, List.flatMap_append, List.flatMap_singleton, List.append_assoc]

theorem due_take (sink : Sink) : (sink.step .take).due = sink.due := by
  obtain ⟨queue, journal, files⟩ := sink
  cases queue with
  | nil => rfl
  | cons entry queue =>
    simp only [step, due, Journal.append, ByteArray.data_append, Array.toList_append,
      List.flatMap_cons, List.append_assoc]

theorem due_spill {front back : ByteArray} (h : sink.journal.pending = front ++ back) :
    (sink.spill front back).due = sink.due := by
  simp only [spill, due, FileTree.bytes_append, h, ByteArray.data_append, Array.toList_append,
    List.append_assoc]

/-- A flush is a spill of everything. -/
theorem step_flush (sink : Sink) :
    sink.step .flush = sink.spill sink.journal.pending ByteArray.empty := rfl

theorem due_flush (sink : Sink) : (sink.step .flush).due = sink.due := by
  rw [step_flush, due_spill ByteArray.append_empty.symm]

theorem path_step (sink : Sink) (action : Action) :
    (sink.step action).journal.path = sink.journal.path := by
  obtain ⟨queue, journal, files⟩ := sink
  cases action with
  | take => cases queue <;> rfl
  | _ => rfl

/-- At the end the task goes on as before while there are entries in the queue. -/
theorem finish_step_take (sink : Sink) : (sink.step .take).finish = sink.finish := by
  obtain ⟨queue, journal, files⟩ := sink
  cases queue <;> rfl

/-- When the queue is empty, it writes what is left. -/
theorem finish_of_taken (taken : sink.queue = []) : sink.finish = (sink.step .flush).files := by
  rw [finish, taken]
  rfl

/-- At the end the file has what is due in it. -/
theorem read?_finish (sink : Sink) :
    ∃ content, sink.finish.read? sink.journal.path = some content ∧
      content.data.toList = sink.due := by
  obtain ⟨queue, journal, files⟩ := sink
  induction queue generalizing journal with
  | nil =>
    rw [finish_of_taken rfl]
    refine ⟨_, FileTree.read?_append _ _ _, ?_⟩
    rw [ByteArray.data_append, Array.toList_append, due, List.flatMap_nil, List.append_nil]
    rfl
  | cons entry queue ih =>
    rw [← finish_step_take, ← due_take]
    exact ih (journal.append entry)

end Sink

/-! ## Handlers at work -/

/-- Some handlers and the sink that they share. -/
structure Trail (ι : Type) where
  /-- What each handler has yet to send. -/
  unsent : ι → List AuditEntry
  /-- What was sent and by whom, the oldest first. -/
  sent : List (ι × AuditEntry)
  sink : Sink

namespace Trail

variable {ι : Type} {capacity : Nat} {trail trail' : Trail ι}

/-- The lines of the entries that were sent. -/
def lines (trail : Trail ι) : List (List UInt8) :=
  trail.sent.map fun (_, entry) => Text.bytes entry.line

theorem lineFeed_notMem_lines (plain : ∀ sent ∈ trail.sent, sent.2.IsPlain) :
    ∀ line ∈ trail.lines, Text.lineFeed ∉ line := by
  intro line hl
  obtain ⟨sent, hs, rfl⟩ := List.mem_map.1 hl
  exact AuditEntry.lineFeed_notMem_line (plain sent hs)

/-- The lines of the trail are read back as what was sent. -/
theorem map_ofBytes?_lines (plain : ∀ sent ∈ trail.sent, sent.2.IsPlain) :
    trail.lines.map AuditEntry.ofBytes? = trail.sent.map fun (_, entry) =>
      if entry.event.details.depth ≤ AuditEntry.maxDepth then some entry else none := by
  rw [lines, List.map_map]
  refine List.map_congr_left fun sent hs => ?_
  obtain ⟨i, entry⟩ := sent
  rw [Function.comp_apply, AuditEntry.ofBytes?_bytes, AuditEntry.ofLine?_line (plain _ hs)]

variable [DecidableEq ι]

/-- What can happen next. A handler sends when there is room in the queue. -/
inductive Step (capacity : Nat) : Trail ι → Trail ι → Prop where
  | send {trail : Trail ι} {i : ι} {entry : AuditEntry} {later : List AuditEntry}
    (next : trail.unsent i = entry :: later) (room : trail.sink.queue.length < capacity) :
    Step capacity trail ⟨Function.update trail.unsent i later, trail.sent ++ [(i, entry)],
      trail.sink.step (.send entry)⟩
  | take {trail : Trail ι} : Step capacity trail { trail with sink := trail.sink.step .take }
  | flush {trail : Trail ι} : Step capacity trail { trail with sink := trail.sink.step .flush }
  /-- The journal may write some of its lines, or parts of them, before it is flushed. -/
  | spill {trail : Trail ι} {front back : ByteArray}
    (pending : trail.sink.journal.pending = front ++ back) :
    Step capacity trail { trail with sink := trail.sink.spill front back }

/-- The entries among those sent that are from a handler. -/
def sentBy (sent : List (ι × AuditEntry)) (i : ι) : List AuditEntry :=
  (sent.filter (·.1 = i)).map (·.2)

theorem sentBy_append_self (sent : List (ι × AuditEntry)) (i : ι) (entry : AuditEntry) :
    sentBy (sent ++ [(i, entry)]) i = sentBy sent i ++ [entry] := by
  simp [sentBy]

theorem sentBy_append_of_ne {i j : ι} (ne : i ≠ j) (sent : List (ι × AuditEntry))
    (entry : AuditEntry) : sentBy (sent ++ [(i, entry)]) j = sentBy sent j := by
  simp [sentBy, ne]

/-- What was sent is due in the file after what was there, each handler's entries in
their order. -/
structure Recorded (path : Path) (previous : List UInt8) (entries : ι → List AuditEntry)
    (trail : Trail ι) : Prop where
  path : trail.sink.journal.path = path
  due : trail.sink.due = previous ++ trail.lines.flatMap (· ++ [Text.lineFeed])
  order : ∀ i, sentBy trail.sent i ++ trail.unsent i = entries i

variable {path : Path} {previous : List UInt8} {entries : ι → List AuditEntry}

theorem Recorded.step (h : Recorded path previous entries trail) (step : Step capacity trail trail') :
    Recorded path previous entries trail' := by
  cases step with
  | @send i entry later next room =>
    refine ⟨(Sink.path_step _ _).trans h.path, ?_, fun j => ?_⟩
    · rw [Sink.due_send, h.due, AuditEntry.toList_lineBytes]
      simp [lines]
    -- What the sender has left is shorter by what it has sent; the others wait.
    · by_cases same : i = j
      · subst same
        simp only [sentBy_append_self, Function.update_self, List.append_assoc,
          List.singleton_append, ← next, h.order]
      · simp only [sentBy_append_of_ne same, Function.update_of_ne (Ne.symm same), h.order]
  | take => exact ⟨(Sink.path_step _ _).trans h.path, (Sink.due_take _).trans h.due, h.order⟩
  | flush => exact ⟨(Sink.path_step _ _).trans h.path, (Sink.due_flush _).trans h.due, h.order⟩
  | spill pending => exact ⟨h.path, (Sink.due_spill pending).trans h.due, h.order⟩

/-- Whatever happens since the start, what was sent is recorded. -/
theorem recorded_of_run {files : FileTree} {sink : Sink} (started : Sink.start path files = .ok sink)
    (run : Relation.ReflTransGen (Step capacity) ⟨entries, [], sink⟩ trail) :
    Recorded path (files.bytes path) entries trail := by
  induction run with
  | refl =>
    obtain ⟨place, due⟩ := Sink.of_start started
    exact ⟨place, due.trans (List.append_nil _).symm, fun _ => rfl⟩
  | tail _ step ih => exact ih.step step

/-! ## The file at the end -/

/-- What was sent is among what there was to send. -/
theorem Recorded.mem (h : Recorded path previous entries trail) {i : ι} {entry : AuditEntry}
    (sent : (i, entry) ∈ trail.sent) : entry ∈ entries i := by
  rw [← h.order i, List.mem_append, sentBy, List.mem_map]
  exact .inl ⟨_, List.mem_filter.2 ⟨sent, decide_eq_true rfl⟩, rfl⟩

theorem Recorded.read?_finish (h : Recorded path previous entries trail) :
    ∃ content, trail.sink.finish.read? path = some content ∧
      content.data.toList = previous ++ trail.lines.flatMap (· ++ [Text.lineFeed]) := by
  obtain ⟨content, found, due⟩ := Sink.read?_finish trail.sink
  rw [h.path] at found
  exact ⟨content, found, due.trans h.due⟩

/-! ## Waiting -/

/-- The task can take all that is in the queue. -/
theorem exists_taken (capacity : Nat) (trail : Trail ι) : ∃ sink : Sink, sink.queue = [] ∧
    Relation.ReflTransGen (Step capacity) trail { trail with sink } := by
  obtain ⟨unsent, sent, queue, journal, files⟩ := trail
  induction queue generalizing journal with
  | nil => exact ⟨_, rfl, .refl⟩
  | cons entry queue ih =>
    obtain ⟨sink, taken, run⟩ := ih (journal.append entry)
    exact ⟨sink, taken, .head .take run⟩

/-- A handler does not wait in vain: there can be room for its next entry. -/
theorem exists_sent (room : 0 < capacity) {i : ι} {entry : AuditEntry} {later : List AuditEntry}
    (next : trail.unsent i = entry :: later) :
    ∃ sink, Relation.ReflTransGen (Step capacity) trail
      ⟨Function.update trail.unsent i later, trail.sent ++ [(i, entry)], sink⟩ := by
  obtain ⟨sink, taken, run⟩ := exists_taken capacity trail
  have free : sink.queue.length < capacity := by rwa [taken]
  exact ⟨_, run.tail (.send next free)⟩

end Trail

end MapGate
