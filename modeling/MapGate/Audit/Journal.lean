import MapGate.Audit.Entry
import MapGate.Files.Tree

/-!
# Journals

A journal appends entries to a file, one line each. Lines that were appended
stay in memory until they are flushed.
-/

namespace MapGate

/-- Why a journal cannot be opened. -/
inductive JournalError where
  | directory
  | file
  deriving DecidableEq

/-- The words for an error. -/
def JournalError.message : JournalError → String
  | directory => "failed to create audit log directory"
  | file => "failed to open audit log file"

/-- An open journal: the path of its file, and the bytes not yet in it. -/
structure Journal where
  path : Path
  pending : ByteArray

namespace Journal

/-- Opens a journal. The directories on the way to its file, and the file itself, are
made if need be. -/
def openAt (path : Path) (files : FileTree) : Except JournalError (Journal × FileTree) :=
  match files.makeDirectory? path.dropLast with
  | none => .error .directory
  | some files =>
    if files.isDirectory path || files.isBarred path then .error .file
    else .ok (⟨path, ByteArray.empty⟩, files.append path ByteArray.empty)

/-- The journal with one more entry. -/
def append (journal : Journal) (entry : AuditEntry) : Journal :=
  { journal with pending := journal.pending ++ entry.lineBytes }

/-- Moves the pending lines into the file. -/
def flush (journal : Journal) (files : FileTree) : Journal × FileTree :=
  ({ journal with pending := ByteArray.empty }, files.append journal.path journal.pending)

end Journal

end MapGate
