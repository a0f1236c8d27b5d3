import MapGate.Audit.Sink
import MapGate.Gateway.Handling
import MapGate.Service.CommandLine
import MapGate.Service.Config
import MapGate.Service.Log

/-!
# From start to stop

A session of the service begins with the command line and the configuration,
serves requests, and ends when it is told to. What it does is logged and goes
into the audit trail.
-/

namespace MapGate

/-- Why the service does not start. -/
inductive StartError where
  | usage (e : UsageError)
  | config (e : ConfigError)
  | fault (fault : ConfigFault)
  | listenAddress
  | journal (e : JournalError)
  | bind (address : SocketAddress)
  deriving DecidableEq

namespace StartError

/-- The words for an error; none are fixed for those of the command line. -/
def message? : StartError → Option String
  | usage _ => none
  | config e => some e.message
  | fault _ => some "invalid configuration"
  | listenAddress => some "invalid listen address"
  | journal _ => some "failed to start audit logger"
  | bind address => some s!"failed to bind {address.render}"

/-- What is behind an error, where the words for it do not tell. -/
def cause? : StartError → Option String
  | fault f => some f.message
  | _ => none

/-- The exit code of the service. -/
def exitCode : StartError → Nat
  | usage .displayHelp | usage .displayVersion => 0
  | usage _ => 2
  | _ => 1

end StartError

/-- A running service. -/
structure Session where
  config : Config
  settings : GatewaySettings
  address : SocketAddress
  sink : Sink
  /-- The messages logged so far. -/
  log : List LogMessage

namespace Session

/-- The part of the program that starts and stops the service. -/
def component : String := "ows-gate"

/-- An event of the service itself. -/
def event (kind : EventKind) (details : List (String × String)) : AuditEvent where
  kind
  source := .ofComponent component
  details := .object (details.map fun (name, value) => (name, .string value))

/-- A message of the service itself. -/
def message (level : LogLevel) (text : String) (fields : List (String × String)) : LogMessage :=
  ⟨level, "ows_gate", text, fields⟩

/-- A message of the gateway. -/
def gatewayMessage (text : String) : LogMessage := ⟨.info, "ows_proxy::server", text, []⟩

/-- The configuration with what the command line says instead. -/
def override (line : CommandLine) (config : Config) : Config :=
  { config with
    listenAddress := line.listen?.getD config.listenAddress
    rendererUrl := line.renderer?.getD config.rendererUrl
    projectsRoot := line.projectsRoot?.getD config.projectsRoot }

/-- Whether the directory of the projects is there. -/
def hasProjectsRoot (config : Config) (files : FileTree) : Bool :=
  config.projectsRoot ≠ "" && files.isDirectory (.ofText config.projectsRoot)

/-- The message about a missing directory of the projects. -/
def rootMissing (config : Config) : LogMessage :=
  message .warn "projects root does not exist; every project will be reported missing"
    [("projects_root", config.projectsRoot)]

/-- The messages of a start. -/
def startLog (line : CommandLine) (config : Config) (settings : GatewaySettings)
    (address : SocketAddress) (files : FileTree) : List LogMessage :=
  message .info "ows-gate starting"
    [("config_file", line.config), ("listen", address.render),
      ("projects_root", config.projectsRoot), ("renderer", settings.renderer.url.render)] ::
  (if hasProjectsRoot config files then [] else [rootMissing config]) ++
  [gatewayMessage "ows gateway listening"]

/-- The event of a start. -/
def startEvent (line : CommandLine) (address : SocketAddress) : AuditEvent :=
  event .serverStarted
    [("config_file", line.config), ("listen", address.render), ("version", serviceVersion)]

/-- Starts the service. `canBind` tells which addresses it can listen at, and `stamp`
makes entries of events. -/
def start (canBind : SocketAddress → Bool) (stamp : AuditEvent → AuditEntry)
    (args : List String) (files : FileTree) : Except StartError Session := do
  let line ← (CommandLine.ofArgs args).mapError .usage
  let config := override line (← (Config.load files line.config).mapError .config)
  let settings ← config.check.mapError .fault
  let some address := SocketAddress.ofText? config.listenAddress | .error .listenAddress
  let sink ← (Sink.start (.ofText config.auditLog) files).mapError .journal
  let sink := sink.step (.send (stamp (startEvent line address)))
  if canBind address then
    return ⟨config, settings, address, sink, startLog line config settings address files⟩
  else .error (.bind address)

/-- The gateway of a service. -/
def gateway (session : Session) : Gateway where
  load :=
    let root := session.config.projectsRoot
    ProjectStore.load ⟨root, session.sink.files.below (.ofText root)⟩
  renderer := session.settings.renderer
  publicBase? := session.settings.publicBase?
  maxBodyBytes := session.settings.maxBodyBytes

/-- Handles a request and records its event. -/
def handle (stamp : AuditEvent → AuditEntry) (reach : RendererRequest → Except String Reply)
    (peer : SocketAddress) (id : Uuid) (request : Request) (session : Session) :
    Reply × Session :=
  let outcome := session.gateway.handle reach peer id request
  match outcome.event? with
  | some event =>
    (outcome.reply, { session with sink := session.sink.step (.send (stamp event)) })
  | none => (outcome.reply, session)

/-- The messages of a stop. -/
def stopLog : List LogMessage :=
  [message .info "received SIGTERM" [], gatewayMessage "ows gateway stopped",
    message .info "ows-gate shutting down" []]

/-- Stops the service. What remains is what was logged, and the files. -/
def stop (stamp : AuditEvent → AuditEntry) (session : Session) : List LogMessage × FileTree :=
  let stopped := stamp (event .serverStopped [("result", "Ok(())")])
  (session.log ++ stopLog, (session.sink.step (.send stopped)).finish)

/-- What is shown of some messages. -/
def shown (session : Session) (log : List LogMessage) : List LogMessage :=
  log.filter (LogFilter.ofText session.config.logLevel).shows

end Session

end MapGate
