import MapGate.Audit.Journal

/-!
# Sinks

Many handlers record entries at once. They send them to a sink, whose queue
puts them in an order; a task of its own takes them from there into the
journal, and flushes it when nothing has come for a while. When no handler is
left, the task takes what is in the queue, flushes a last time and ends.
-/

namespace MapGate

/-- A running sink and the files it works on. -/
structure Sink where
  /-- The entries that were sent and not yet taken, the oldest first. -/
  queue : List AuditEntry
  journal : Journal
  files : FileTree

namespace Sink

/-- What can happen to a sink. -/
inductive Action where
  /-- A handler sends an entry. -/
  | send (entry : AuditEntry)
  /-- The task takes the oldest entry. -/
  | take
  /-- The task flushes the journal. -/
  | flush

/-- Starts a sink on the file at a path. -/
def start (path : Path) (files : FileTree) : Except JournalError Sink := do
  let (journal, files) ← Journal.openAt path files
  return ⟨[], journal, files⟩

/-- The sink after an action. -/
def step (sink : Sink) : Action → Sink
  | .send entry => { sink with queue := sink.queue ++ [entry] }
  | .take =>
    match sink.queue with
    | [] => sink
    | entry :: queue => { sink with queue, journal := sink.journal.append entry }
  | .flush =>
    let (journal, files) := sink.journal.flush sink.files
    { sink with journal, files }

/-- The sink after some actions. -/
def run (sink : Sink) (actions : List Action) : Sink := actions.foldl step sink

/-- The files when no handler is left and the task has ended. -/
def finish (sink : Sink) : FileTree :=
  ((sink.queue.foldl Journal.append sink.journal).flush sink.files).2

/-- Starts a sink, sends some entries and ends it. -/
def record (path : Path) (entries : List AuditEntry) (files : FileTree) :
    Except JournalError FileTree := do
  let sink ← start path files
  return (sink.run (entries.map .send)).finish

end Sink

end MapGate
