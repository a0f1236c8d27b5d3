import MapGate.Policy.Validation
import MapGate.Text.QualifiedName

/-!
# The index of published layer names

Clients name layers by their published names, permissions are given by layer
IDs. The index leads from a name to the ID. It leaves excluded layers out, and
a name that several layers share leads to no layer, since no ID would be
right for it.
-/

namespace MapGate

/-- The layer IDs by published name. -/
structure LayerIndex where
  byName : NameMap String

namespace LayerIndex

/-- The index of no layers. -/
def empty : LayerIndex := ⟨∅⟩

/-- Adds a layer. If its name is taken already, the name leads nowhere. -/
def publish (index : LayerIndex) (id : String) (layer : LayerSettings) : LayerIndex :=
  if layer.isExcluded then index
  else if index.byName.contains layer.name then ⟨index.byName.insert layer.name unknownLayer⟩
  else ⟨index.byName.insert layer.name id⟩

/-- The index of a project's layers. -/
def ofLayers (layers : NameMap LayerSettings) : LayerIndex :=
  layers.toList.foldl (fun index entry => index.publish entry.1 entry.2) empty

/-- The ID of the layer that a name means; the namespace of the name does not
matter. A name that is not published leads to `unknownLayer`. -/
def resolve (index : LayerIndex) (typeName : String) : String :=
  index.byName.getD (Text.localName typeName) unknownLayer

/-- How many names are published. -/
def size (index : LayerIndex) : Nat := index.byName.size

/-- Whether no name is published. -/
def isEmpty (index : LayerIndex) : Bool := index.byName.isEmpty

end LayerIndex

end MapGate
