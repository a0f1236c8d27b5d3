import MapGate.Policy.PermissionContext

/-!
# Access to a project

Where a project defines roles they decide alone: a user to whom none applies
is turned away. Where it defines none, its access mode decides, and a user it
lets in may do anything.
-/

namespace MapGate

/-- Why a user may not use a project. -/
inductive AccessDenial where
  | noRole (user : String)
  | accessMode (mode : AccessMode) (user : String)
  deriving DecidableEq

/-- The words for a denial. -/
def AccessDenial.message : AccessDenial → String
  | noRole user => s!"no role applies to user '{user}'"
  | accessMode mode user => s!"project access mode {mode.title} rejects user '{user}'"

/-- What a user may do with a project. -/
inductive Access where
  /-- What the permissions of the user allow. -/
  | roles (context : PermissionContext)
  /-- Anything. -/
  | unchecked
  | denied (reason : AccessDenial)

/-- Whether the user is turned away. -/
def Access.isDenied : Access → Bool
  | denied _ => true
  | _ => false

/-- Whether an access mode lets a user in. -/
def ProjectAccess.admits (access : ProjectAccess) (user : User) : Bool :=
  match access.mode with
  | .everyone => true
  | .signedIn => user.isSignedIn
  | .listed => user.isSignedIn && access.users.contains user.name
  | .nobody => false

/-- What a user may do with the project of some settings. -/
def ProjectSettings.accessOf (settings : ProjectSettings) (user : User) : Access :=
  if settings.roles.isEmpty then
    if settings.access.admits user then .unchecked
    else .denied (.accessMode settings.access.mode user.name)
  else
    let context := PermissionContext.ofUser user settings.roles
    if context.hasRoles then .roles context else .denied (.noRole user.name)

end MapGate
