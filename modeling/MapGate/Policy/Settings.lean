import Std.Data.TreeMap
import Std.Data.TreeSet
import MapGate.Policy.Flags

/-!
# Project settings

The access document of a published project: the file it renders, its layers
with their published names, the roles that grant permissions, and the access
mode that decides where there are no roles.
-/

namespace MapGate

/-- A table with one value per name, in the order of the names. -/
abbrev NameMap (α : Type) := Std.TreeMap String α

/-- A set of names in their order. -/
abbrev NameSet := Std.TreeSet String

/-- Who may use a project that defines no roles. -/
inductive AccessMode where
  | everyone
  | signedIn
  | listed
  | nobody
  deriving DecidableEq, Inhabited

namespace AccessMode

/-- The word for a mode in a settings document. -/
def keyword : AccessMode → String
  | everyone => "public"
  | signedIn => "authenticated"
  | listed => "users"
  | nobody => "private"

/-- The word for a mode in the reason of a refusal. -/
def title : AccessMode → String
  | everyone => "Public"
  | signedIn => "Authenticated"
  | listed => "Users"
  | nobody => "Private"

/-- The mode that a word of a settings document names. -/
def ofKeyword? (word : String) : Option AccessMode :=
  [everyone, signedIn, listed, nobody].find? (·.keyword == word)

end AccessMode

/-- The users that a role is for. -/
inductive Audience where
  | everyone
  | signedIn
  | anonymous
  | listed
  /-- The users to whom no role of another audience applies. -/
  | others
  deriving DecidableEq

namespace Audience

/-- The word for an audience in a settings document. -/
def keyword : Audience → String
  | everyone => "all"
  | signedIn => "authenticated"
  | anonymous => "anonymous"
  | listed => "users"
  | others => "other"

/-- The audience that a word of a settings document names. -/
def ofKeyword? (word : String) : Option Audience :=
  [everyone, signedIn, anonymous, listed, others].find? (·.keyword == word)

end Audience

/-- A layer as the project publishes it. -/
structure LayerSettings where
  /-- The name by which clients ask for the layer. -/
  name : String
  /-- How the layer is published, whoever asks. -/
  flags : Flags

/-- The flag of a layer that is not published at all. -/
def excludedFlag : String := "excluded"

/-- Whether a layer is withdrawn from publishing. -/
def LayerSettings.isExcluded (layer : LayerSettings) : Bool := layer.flags.has excludedFlag

/-- A rule that gives an audience permissions on layers and attributes. -/
structure Role where
  name : String
  audience : Audience
  /-- The users of the audience `listed`. -/
  users : NameSet
  /-- The flags on each layer, by layer ID. -/
  layers : NameMap Flags
  /-- The flags on each attribute, by layer ID and attribute name. -/
  attributes : NameMap (NameMap Flags)
  topics : NameSet

/-- Who may use a project without roles. -/
structure ProjectAccess where
  mode : AccessMode
  /-- The users that the mode `listed` lets in. -/
  users : NameSet

/-- The mode that lets nobody in. -/
def ProjectAccess.closed : ProjectAccess := ⟨.nobody, ∅⟩

/-- The access document of a project. -/
structure ProjectSettings where
  /-- The name of the project file inside the project's directory. -/
  projectFile : String
  access : ProjectAccess
  /-- The layers by their IDs. -/
  layers : NameMap LayerSettings
  roles : List Role

end MapGate
