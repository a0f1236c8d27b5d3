import MapGate.Text.List
import MapGate.Text.Percent

/-!
# Routes

The path of a request names a project by its owner and its name, each of which
is one segment and may be percent-encoded.
-/

namespace MapGate

/-- What the path of a request leads to. -/
inductive Route where
  | project (owner name : String)
  /-- The given part of a project's path is not UTF-8. -/
  | undecodable (part : String)
  | unknown
  deriving DecidableEq

namespace Route

/-- The text that a segment stands for. -/
def decodeSegment? (segment : String) : Option String :=
  String.fromUTF8? ⟨(Text.percentDecode (Text.Utf8.encode segment)).toArray⟩

/-- What a path leads to. The name of a project is not left out. -/
def ofPath (path : String) : Route :=
  match Text.splitOn '/' path with
  | ["", "ows", owner, name] =>
    if name = "" then unknown
    else match decodeSegment? owner, decodeSegment? name with
      | none, _ => undecodable "owner"
      | _, none => undecodable "project"
      | some owner, some name => project owner name
  | _ => unknown

end Route

end MapGate
