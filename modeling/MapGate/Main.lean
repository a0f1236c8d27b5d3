import MapGate.Service.Session
import Std.Time.DateTime

/-!
# The program

Starts the service, handles the requests on standard input, each line of which
is the target of one, and stops at its end. The renderer is not within reach
of the console, so a request that would go to it is answered accordingly.
-/

namespace MapGate.Console

/-- A moment for which the clock is no help. -/
def epoch : Timestamp := ⟨⟨1970, 1, 1, by decide⟩, 0, 0, 0, 0⟩

/-- The current moment. -/
def now : IO Timestamp := do
  let clock ← Std.Time.Timestamp.now
  let moment := Std.Time.PlainDateTime.ofWallTime
    (.ofNanoseconds clock.toNanosecondsSinceUnixEpoch)
  let moment? := do
    let date ← Date.ofParts? moment.date.year.toInt moment.date.month.val.toNat
      moment.date.day.val.toNat
    Timestamp.ofLocal? date moment.time.hour.val.toNat moment.time.minute.val.toNat
      moment.time.second.val.toNat moment.time.nanosecond.val.toNat 0
  return moment?.getD epoch

/-- A new identifier. -/
def newId : IO Uuid := do
  let bytes ← (List.range 16).mapM fun _ => return UInt8.ofNat (← IO.rand 0 255)
  return (Uuid.ofRandom? bytes).getD ⟨List.replicate 16 0, by decide⟩

/-- What makes entries of the events of this moment. -/
def newStamp : IO (AuditEvent → AuditEntry) := do
  return (⟨← newId, ← now, ·⟩)

/-- The texts of a path and of the directories on the way to it. -/
def onTheWay (text : String) : List String :=
  let path := Path.ofText text
  (List.range path.length).map fun n =>
    (if text.startsWith "/" then "/" else "") ++ "/".intercalate (path.take (n + 1))

/-- What is in the file at a path, or why nobody is let into it. -/
def readEntry (place : String) : IO FileEntry := do
  try
    return .file (← IO.FS.readBinFile place)
  catch e => return .locked (toString e)

/-- The files with what there is at a path, and on the way to it. What is behind a
directory that lets nobody through cannot be told from what is not there, so it is noted at
the path itself only. -/
def survey (files : FileTree) (text : String) : IO FileTree :=
  (onTheWay text).foldlM (fun files (place : String) => do
    try
      let found ← IO.FS.realPath place
      if !(← found.pathExists) then return files
      else if ← found.isDir then return files.put (.ofText place) .directory
      else return files.put (.ofText place) (← readEntry place)
    catch
      | e@(.permissionDenied ..) =>
        if Path.ofText place = Path.ofText text then
          return files.put (.ofText place) (.unseen (toString e))
        else return files
      | _ => return files) files

/-- Shows messages, each as one line of JSON. -/
def display (session : Session) (log : List LogMessage) : IO Unit :=
  (session.shown log).forM fun message => do
    let fields := ("message", Json.string message.text) ::
      message.fields.map fun (name, value) => (name, .string value)
    IO.println <| Json.render <| .object
      [("level", .string message.level.name), ("fields", .object fields),
        ("target", .string message.part)]

/-- The renderer as seen from the console. -/
def reach (_ : RendererRequest) : Except String Reply := .error "not within reach"

/-- The address of the console. -/
def peer : SocketAddress := .v4 ⟨127, 0, 0, 1⟩ 0

/-- Handles the request for a target. -/
def handle (session : Session) (target : Target) : IO Session := do
  let request := Request.ofTarget .get target .empty ByteArray.empty
  let files ← match Route.ofPath request.publicPath with
    | .project owner name =>
      if isSafeSegment owner && isSafeSegment name then
        survey session.sink.files
          ((ProjectStore.settingsPath owner name).textBelow session.config.projectsRoot)
      else pure session.sink.files
    | _ => pure session.sink.files
  let session := { session with sink := { session.sink with files } }
  let (reply, session) := session.handle (← newStamp) reach peer (← newId) request
  let text := (String.fromUTF8? reply.body).getD ""
  IO.println s!"{reply.status} {text}"
  return session

/-- Handles the requests on standard input. -/
partial def serve (input : IO.FS.Stream) (session : Session) : IO Session := do
  let line ← input.getLine
  if line.isEmpty then return session
  match Target.ofText? (Text.trim line) with
  | some target => serve input (← handle session target)
  | none =>
    IO.println "400 Bad Request"
    serve input session

/-- Writes the audit trail to its file. -/
def save (session : Session) (files : FileTree) : IO Unit := do
  match (onTheWay session.config.auditLog).dropLast.getLast? with
  | some directory => IO.FS.createDirAll directory
  | none => pure ()
  match files.read? (.ofText session.config.auditLog) with
  | some content => IO.FS.writeBinFile session.config.auditLog content
  | none => pure ()

/-- The files that matter for a start. -/
def surveyStart (args : List String) : IO FileTree := do
  match CommandLine.ofArgs args with
  | .error _ => return .empty
  | .ok line =>
    let files ← survey .empty line.config
    match Config.load files line.config with
    | .error _ => return files
    | .ok config =>
      let config := Session.override line config
      survey (← survey files config.projectsRoot) config.auditLog

/-- Tells why the service does not start. -/
def complain (e : StartError) : IO Unit := do
  match e with
  | .usage .displayHelp => IO.println UsageError.displayHelp.message
  | .usage .displayVersion => IO.println UsageError.displayVersion.message
  | .usage e => IO.eprintln e.message
  | e =>
    let message := e.message?.getD ""
    IO.eprintln s!"Error: {message}"
    match e.cause? with
    | some cause => IO.eprintln s!"\nCaused by:\n    {cause}"
    | none => pure ()

/-- Runs the service from start to stop. -/
def run (args : List String) : IO UInt32 := do
  match Session.start (fun _ => true) (← newStamp) args (← surveyStart args) with
  | .error e =>
    complain e
    return UInt32.ofNat e.exitCode
  | .ok session =>
    display session session.log
    let session ← serve (← IO.getStdin) session
    let (_, files) := session.stop (← newStamp)
    display session Session.stopLog
    save session files
    return 0

end MapGate.Console

/-- The command. -/
def main (args : List String) : IO UInt32 := MapGate.Console.run args
