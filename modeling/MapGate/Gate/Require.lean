import MapGate.Gate.Check
import MapGate.Text.List

/-!
# Required flags

What an operation does to a layer or an attribute needs a flag of it. A layer
is named as the client names it and resolved through the index; a name that
leads to no layer has no flags.
-/

namespace MapGate

/-- The flags that operations need. -/
inductive Permission where
  | view
  | query
  | insert
  | update
  | delete
  | edit
  deriving DecidableEq

/-- The tag that gives a permission. -/
def Permission.tag : Permission → String
  | view => "view"
  | query => "query"
  | insert => "insert"
  | update => "update"
  | delete => "delete"
  | edit => "edit"

namespace Check

/-- Requires a permission on a named layer and gives the layer's ID. -/
def requireLayer (index : LayerIndex) (layer : String) (permission : Permission) :
    Check String := do
  let id := index.resolve layer
  let flags ← layerFlags id
  require (flags.has permission.tag) (.denied (.layerLacks layer permission.tag))
  return id

/-- Requires a permission on an attribute of the layer with an ID. In the
denial the layer goes by the name that the client used. -/
def requireAttribute (id layer attr : String) (permission : Permission) : Check Unit := do
  let flags ← attributeFlags id attr
  require (flags.has permission.tag) (.denied (.attributeLacks attr layer permission.tag))

/-- Requires a permission on all layers of a comma list. -/
def requireAll (index : LayerIndex) (list? : Option String) (permission : Permission) :
    Check Unit :=
  (Text.entries (list?.getD "")).forM fun layer =>
    discard (requireLayer index layer permission)

end Check

/-- The attribute that a property name means; blanks around the name and its
namespace do not count. -/
def attributeOf (property : String) : String := Text.localName (Text.trim property)

end MapGate
