/-!
# Tokens

Method and header names are tokens: one or more of the characters that HTTP
allows in them.
-/

namespace MapGate.Http

/-- The characters of a token. -/
def isTokenChar (c : Char) : Bool :=
  c.isAlphanum || "!#$%&'*+-.^_|~".toList.contains c || c == '\x60'

/-- Whether a text is a token. -/
def isToken (s : String) : Bool := !s.toList.isEmpty && s.toList.all isTokenChar

end MapGate.Http
