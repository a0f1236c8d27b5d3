import MapGate.Http.Token

/-!
# Request methods

A method is any token, and its letters keep their case: `post` is not `POST`.
-/

namespace MapGate

/-- The method of a request. -/
structure Method where
  name : String
  deriving DecidableEq

namespace Method

def get : Method := ⟨"GET"⟩
def head : Method := ⟨"HEAD"⟩
def post : Method := ⟨"POST"⟩

/-- The method of a name, if the name is a token. -/
def ofName? (name : String) : Option Method :=
  if Http.isToken name then some ⟨name⟩ else none

end Method

end MapGate
