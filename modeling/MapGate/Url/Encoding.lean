import MapGate.Text.Percent

/-!
# What stands for itself in a URL

Each component of a URL has characters of its own that stand for themselves;
all others are percent-encoded.
-/

namespace MapGate.Url

/-- The ASCII characters that are no control characters. -/
def isGraphic (c : Char) : Bool := 0x20 ≤ c.toNat && c.toNat < 0x7F

/-- What stands for itself in a fragment. -/
def keepsInFragment (c : Char) : Bool :=
  isGraphic c && !" \"<>\x60".toList.contains c

/-- What stands for itself in a query. -/
def keepsInQuery (c : Char) : Bool := isGraphic c && !" \"#<>".toList.contains c

/-- What stands for itself in a query after a special scheme. -/
def keepsInSpecialQuery (c : Char) : Bool := keepsInQuery c && c ≠ '\''

/-- What stands for itself in a path. -/
def keepsInPath (c : Char) : Bool := keepsInFragment c && !"#?\x7b\x7d".toList.contains c

/-- What stands for itself in a user name or password. -/
def keepsInUserInfo (c : Char) : Bool := keepsInPath c && !"/:;=@[\\]^|".toList.contains c

end MapGate.Url
