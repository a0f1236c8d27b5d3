import MapGate.Files.Tree
import MapGate.Gate.Caller
import MapGate.Gate.Direction
import MapGate.Url.Parser
import MapGate.Yaml.Decode

/-!
# Configuration

The configuration of the service is a YAML document of sections, each of which
may be left out. `Config.ofText?` reads it and `Config.check` makes sure that
the gateway can work with it.
-/

namespace MapGate

open Yaml

/-- The configuration as it is written. -/
structure Config where
  listenAddress : String := "127.0.0.1:8090"
  rendererUrl : String := "http://127.0.0.1:8080/ows"
  timeoutSeconds : Nat := 60
  /-- The directory below which the gate finds the settings of the projects. -/
  projectsRoot : String := "projects"
  /-- The directory below which the renderer finds the projects. -/
  mapRoot : String := "/srv/projects"
  userHeader : String := HeaderName.user.text
  publicBase? : Option String := none
  maxBodyBytes : Nat := 10485760
  logLevel : String := "info"
  auditLog : String := "audit.jsonl"
  deriving DecidableEq

/-- Why there is no configuration. -/
inductive ConfigError where
  | form (path : String)
  | unreadable (path : String)
  deriving DecidableEq

/-- The words for an error. -/
def ConfigError.message : ConfigError → String
  | form path => s!"failed to parse config file {path}"
  | unreadable path => s!"failed to read config file {path}"

/-- What is wrong with a configuration. -/
inductive ConfigFault where
  | rendererUrl (text : String)
  | userHeader (text : String)
  | publicBase (text : String)
  | maxBodyBytes
  deriving DecidableEq

/-- The words for a fault. -/
def ConfigFault.message : ConfigFault → String
  | rendererUrl text => s!"invalid renderer url '{text}'"
  | userHeader text => s!"invalid user header '{text}'"
  | publicBase text => s!"invalid public base url '{text}'"
  | maxBodyBytes => "limits.max_body_bytes must be greater than zero"

/-- What the gateway needs to know. -/
structure GatewaySettings where
  renderer : RendererSettings
  publicBase? : Option Url
  maxBodyBytes : Nat
  timeoutSeconds : Nat

namespace Config

/-! ## Reading -/

/-- The fields of a section, which may be left out. -/
def section? (document : Document) (root : Document.Fields) (name : String)
    (names : List String) : Option Document.Fields :=
  root.getD? name (document.fields? names) ⟨[]⟩

/-- The configuration in a document. -/
def ofDocument? (document : Document) : Option Config := do
  let root ← document.rootFields?
    ["network", "renderer", "projects", "auth", "public", "limits", "logging"]
  let network ← section? document root "network" ["listen_addr"]
  let renderer ← section? document root "renderer" ["url", "timeout_secs"]
  let projects ← section? document root "projects" ["root", "map_root"]
  let auth ← section? document root "auth" ["user_header"]
  let address ← section? document root "public" ["base_url"]
  let limits ← section? document root "limits" ["max_body_bytes"]
  let logging ← section? document root "logging" ["level", "audit_log_path"]
  let unset : Config := {}
  return {
    listenAddress := ← network.getD? "listen_addr" document.text? unset.listenAddress
    rendererUrl := ← renderer.getD? "url" document.text? unset.rendererUrl
    timeoutSeconds := ← renderer.getD? "timeout_secs" document.size? unset.timeoutSeconds
    projectsRoot := ← projects.getD? "root" document.text? unset.projectsRoot
    mapRoot := ← projects.getD? "map_root" document.text? unset.mapRoot
    userHeader := ← auth.getD? "user_header" document.text? unset.userHeader
    publicBase? := ← address.getD? "base_url" (document.optional? document.text?) none
    maxBodyBytes := ← limits.getD? "max_body_bytes" document.size? unset.maxBodyBytes
    logLevel := ← logging.getD? "level" document.text? unset.logLevel
    auditLog := ← logging.getD? "audit_log_path" document.text? unset.auditLog }

/-- The configuration that a text holds. -/
def ofText? (text : String) : Option Config := (Document.ofText? text).bind ofDocument?

/-- The configuration in the file at a path. Without such a file everything is as by
default. -/
def load (files : FileTree) (path : String) : Except ConfigError Config :=
  if !files.hasEntry (.ofText path) then .ok {}
  else match (files.read? (.ofText path)).bind String.fromUTF8? with
    | none => .error (.unreadable path)
    | some text =>
      match ofText? text with
      | some config => .ok config
      | none => .error (.form path)

/-! ## Checking -/

/-- What a configuration means for the gateway. -/
def check (config : Config) : Except ConfigFault GatewaySettings := do
  let some url := Url.ofText? config.rendererUrl | .error (.rendererUrl config.rendererUrl)
  let some identityHeader := HeaderName.ofText? (Text.trim config.userHeader)
    | .error (.userHeader config.userHeader)
  let publicBase? ← config.publicBase?.mapM fun text =>
    match Url.ofText? text with
    | some url => .ok url
    | none => .error (.publicBase text)
  if config.maxBodyBytes = 0 then .error .maxBodyBytes
  else
    return {
      renderer := { url, mapRoot := config.mapRoot, identityHeader }
      publicBase?
      maxBodyBytes := config.maxBodyBytes
      timeoutSeconds := config.timeoutSeconds }

end Config

end MapGate
