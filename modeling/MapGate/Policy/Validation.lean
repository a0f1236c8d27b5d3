import MapGate.Policy.Settings
import MapGate.Text.List

/-!
# Well-formed settings

Settings can be read and still make no sense as a policy. `fault?` finds what
is wrong with them: first the project file is looked at, then the layers in
the order of their IDs, then the roles in the order of the document.
-/

namespace MapGate

/-- The layer ID that stands for no layer at all. -/
def unknownLayer : String := ""

/-- Why settings are not a policy. -/
inductive SettingsFault where
  | blankProjectFile
  | projectFilePath (file : String)
  | emptyLayerId
  | sharedLayerName (first second name : String)
  | emptyRoleName
  | duplicateRole (name : String)
  | noListedUsers (role : String)
  | emptyLayerReference (role : String)
  deriving DecidableEq

/-- The words for a fault. -/
def SettingsFault.message : SettingsFault → String
  | blankProjectFile => "project_file must not be empty"
  | projectFilePath file => s!"project_file '{file}' must be a plain file name"
  | emptyLayerId => "layer ID must not be empty"
  | sharedLayerName first second name =>
    s!"layers '{first}' and '{second}' are both published as '{name}'"
  | emptyRoleName => "role name must not be empty"
  | duplicateRole name => s!"duplicate role name: '{name}'"
  | noListedUsers role => s!"role '{role}' uses auth 'users' but lists no users"
  | emptyLayerReference role => s!"role '{role}' references an empty layer ID"

namespace ProjectSettings

/-- A project file is named, and the name is no path. -/
def fileFault? (file : String) : Option SettingsFault :=
  if Text.isBlankText file then some .blankProjectFile
  else if Text.contains "/" file || Text.contains ".." file then some (.projectFilePath file)
  else none

/-- Layers have IDs, and those that are published have different names.
`published` holds the names before these layers, each with its layer ID. -/
def layersFault? (published : List (String × String)) :
    List (String × LayerSettings) → Option SettingsFault
  | [] => none
  | (id, layer) :: layers =>
    if id = unknownLayer then some .emptyLayerId
    else if layer.isExcluded then layersFault? published layers
    else match published.lookup layer.name with
      | some first => some (.sharedLayerName first id layer.name)
      | none => layersFault? ((layer.name, id) :: published) layers

/-- What is wrong with one role when roles with the names `seen` come before. -/
def roleFault? (seen : List String) (role : Role) : Option SettingsFault :=
  if role.name = "" then some .emptyRoleName
  else if role.name ∈ seen then some (.duplicateRole role.name)
  else if role.audience = .listed ∧ role.users.isEmpty then some (.noListedUsers role.name)
  else if role.layers.contains unknownLayer ∨ role.attributes.contains unknownLayer then
    some (.emptyLayerReference role.name)
  else none

/-- The first fault of a list of roles that follow those with the names `seen`. -/
def rolesFault? (seen : List String) : List Role → Option SettingsFault
  | [] => none
  | role :: roles => roleFault? seen role <|> rolesFault? (role.name :: seen) roles

/-- The first fault of the settings, if they have any. -/
def fault? (settings : ProjectSettings) : Option SettingsFault :=
  fileFault? settings.projectFile <|> layersFault? [] settings.layers.toList <|>
    rolesFault? [] settings.roles

/-- The settings, if there is nothing wrong with them. -/
def validate (settings : ProjectSettings) : Except SettingsFault ProjectSettings :=
  match settings.fault? with
  | some fault => .error fault
  | none => .ok settings

end ProjectSettings

end MapGate
