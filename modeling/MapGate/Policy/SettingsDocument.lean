import MapGate.Policy.Validation
import MapGate.Yaml.Decode

/-!
# Settings documents

Settings are written in YAML. `ProjectSettings.ofText` reads them and makes sure
that they are well formed.
-/

namespace MapGate

open Yaml

/-- Why a text is no settings document. -/
inductive SettingsError where
  /-- The text is not in the form of a settings document. -/
  | form
  | fault (fault : SettingsFault)
  deriving DecidableEq

/-- The words for an error. -/
def SettingsError.message : SettingsError → String
  | form => "YAML deserialization failed"
  | fault f => f.message

namespace ProjectSettings

variable (document : Document)

/-- The flags of a list of tags. -/
def readFlags? (node : Node) : Option Flags := (document.list? document.text? node).map .ofList

/-- The access rule of a project without roles. -/
def readAccess? (node : Node) : Option ProjectAccess := do
  let fields ← document.fields? ["mode", "users"] node
  return {
    mode := ← fields.getD? "mode" (document.keyword? AccessMode.ofKeyword?) .nobody
    users := ← fields.getD? "users" document.set? ∅ }

/-- A layer. -/
def readLayer? (node : Node) : Option LayerSettings := do
  let fields ← document.fields? ["name", "flags"] node
  return {
    name := ← fields.required? "name" document.text?
    flags := ← fields.getD? "flags" (readFlags? document) ∅ }

/-- A role. -/
def readRole? (node : Node) : Option Role := do
  let fields ← document.fields? ["name", "auth", "users", "layers", "attributes", "topics"] node
  return {
    name := ← fields.required? "name" document.text?
    audience := ← fields.required? "auth" (document.keyword? Audience.ofKeyword?)
    users := ← fields.getD? "users" document.set? ∅
    layers := ← fields.getD? "layers" (document.table? (readFlags? document)) ∅
    attributes :=
      ← fields.getD? "attributes" (document.table? (document.table? (readFlags? document))) ∅
    topics := ← fields.getD? "topics" document.set? ∅ }

/-- The settings in a document. -/
def ofDocument? : Option ProjectSettings := do
  let fields ← document.rootFields? ["project_file", "access", "layers", "roles"]
  return {
    projectFile := ← fields.required? "project_file" document.text?
    access := ← fields.getD? "access" (readAccess? document) .closed
    layers := ← fields.getD? "layers" (document.table? (readLayer? document)) ∅
    roles := ← fields.getD? "roles" (document.list? (readRole? document)) [] }

/-- The settings that a text holds. -/
def ofText (text : String) : Except SettingsError ProjectSettings :=
  match (Document.ofText? text).bind ofDocument? with
  | some settings => settings.validate.mapError .fault
  | none => .error .form

end ProjectSettings

end MapGate
