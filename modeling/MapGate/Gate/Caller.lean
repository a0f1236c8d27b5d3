import MapGate.Http.Headers
import MapGate.Policy.User
import MapGate.Text.Blank

/-!
# Who is calling

The authentication in front of the gate puts the name of a signed-in user into
a header that clients cannot set themselves.
-/

namespace MapGate

/-- The header that carries the name of the user unless another is configured. -/
def HeaderName.user : HeaderName := ⟨"x-auth-user", by decide, by decide⟩

/-- The user whose name the given header carries. Without a name that can be read
the caller is anonymous. -/
def Headers.caller (headers : Headers) (identity : HeaderName) : User :=
  match (headers.get? identity).bind Http.visibleText? with
  | some text => if Text.trim text = "" then .anonymous else .signedIn (Text.trim text)
  | none => .anonymous

end MapGate
