import MapGate.Policy.Settings

/-!
# Users and the roles that apply to them

A role applies to the users of its audience. The roles for `others` are a last
resort: they apply together, and only when no other role does.
-/

namespace MapGate

/-- The caller of a request, as the authentication in front established it. -/
structure User where
  name : String
  isSignedIn : Bool
  deriving DecidableEq

namespace User

/-- A caller without a session. -/
def anonymous : User := ⟨"", false⟩

/-- A signed-in user of the given name. -/
def signedIn (name : String) : User := ⟨name, true⟩

end User

/-- Whether a role is for a user in its own right. -/
def Role.matches (role : Role) (user : User) : Bool :=
  match role.audience with
  | .everyone => true
  | .signedIn => user.isSignedIn
  | .anonymous => !user.isSignedIn
  | .listed => user.isSignedIn && role.users.contains user.name
  | .others => false

/-- The roles that apply to a user, in the order of the document. -/
def applicableRoles (user : User) (roles : List Role) : List Role :=
  let matched := roles.filter (·.matches user)
  if matched.isEmpty then roles.filter (·.audience = .others) else matched

end MapGate
