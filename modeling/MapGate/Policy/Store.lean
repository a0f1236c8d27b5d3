import MapGate.Files.Tree
import MapGate.Gate.Error
import MapGate.Policy.LayerIndex
import MapGate.Policy.SettingsDocument

/-!
# Projects and where they are found

A project belongs to an owner and has a name. Its settings lie in a file of its
own directory below the projects root, and are read anew each time.
-/

namespace MapGate

/-- A project with all that the gate has to know about it. -/
structure Project where
  owner : String
  name : String
  settings : ProjectSettings
  layers : LayerIndex

namespace Project

/-- The project with the given settings. -/
def ofSettings (owner name : String) (settings : ProjectSettings) : Project where
  owner
  name
  settings
  layers := .ofLayers settings.layers

/-- The name of the project file. -/
def file (project : Project) : String := project.settings.projectFile

end Project

/-- Why there is no project to be had. -/
inductive StoreError where
  | notFound (project : String)
  | invalid (project reason : String)
  deriving DecidableEq

namespace StoreError

/-- The words for an error. -/
def message : StoreError → String
  | notFound project => s!"project '{project}' not found"
  | invalid project reason => s!"failed to load settings of project '{project}': {reason}"

/-- What the error means for a request. -/
def toGateError : StoreError → GateError
  | notFound project => .projectNotFound project
  | e => .settingsUnavailable e.message

end StoreError

/-- The name of a settings file. -/
def settingsFile : String := "access.yaml"

/-- Whether a name can be part of a path without leading anywhere else. -/
def isSafeSegment (segment : String) : Bool :=
  segment ≠ "" && segment.toList.head? ≠ some '.' &&
    !segment.toList.any fun c => c == '/' || c == '\\'

/-- A projects root: the files below it, and its name for messages. -/
structure ProjectStore where
  root : String
  files : FileTree

namespace ProjectStore

/-- The path of a project's settings below the root. -/
def settingsPath (owner name : String) : Path := [owner, name, settingsFile]

/-- Why the settings at some path cannot be used. -/
def failure (path : String) : SettingsError → String
  | .form => s!"{intro}: {SettingsError.form.message}: unexpected form"
  | e => s!"{intro}: {e.message}"
where intro := s!"failed to parse project settings: {path}"

/-- The settings in the file at a path below the root. -/
def loadSettings (store : ProjectStore) (path : Path) : Except String ProjectSettings :=
  let place := path.textBelow store.root
  match store.files.readText path with
  | .error reason => .error s!"failed to read project settings: {place}: {reason}"
  | .ok text => (ProjectSettings.ofText text).mapError (failure place)

/-- The project of an owner. -/
def load (store : ProjectStore) (owner name : String) : Except StoreError Project :=
  let project := s!"{owner}/{name}"
  if !isSafeSegment owner || !isSafeSegment name then .error (.notFound project)
  else
    let path := settingsPath owner name
    if !store.files.isFile path then .error (.notFound project)
    else match store.loadSettings path with
      | .ok settings => .ok (.ofSettings owner name settings)
      | .error reason => .error (.invalid project reason)

end ProjectStore

end MapGate
