import MapGate.Policy.LayerIndex

/-!
# What roles grant together

Permissions add up: a layer or an attribute carries every flag that one of the
roles gives it. Nothing is ever granted on the layer ID that stands for an
unknown layer, whatever the roles say.
-/

namespace MapGate.Grants

/-- The flags of a layer. -/
def layerFlags (roles : List Role) (layer : String) : Flags :=
  if layer = unknownLayer then ∅
  else (roles.filterMap (·.layers[layer]?)).foldl (· ∪ ·) ∅

/-- Adds flags to those that an attribute has so far. -/
def addAttribute (merged : NameMap Flags) (entry : String × Flags) : NameMap Flags :=
  merged.insert entry.1 (merged.getD entry.1 ∅ ∪ entry.2)

/-- Adds the attribute flags of one role to those of the roles before it. -/
def addAttributes (merged attributes : NameMap Flags) : NameMap Flags :=
  attributes.toList.foldl addAttribute merged

/-- The flags of the attributes of a layer, by attribute name. -/
def attributesFlags (roles : List Role) (layer : String) : NameMap Flags :=
  if layer = unknownLayer then ∅
  else (roles.filterMap (·.attributes[layer]?)).foldl addAttributes ∅

/-- The flags of one attribute; it has none if no role mentions it. -/
def attributeFlags (roles : List Role) (layer attr : String) : Flags :=
  (attributesFlags roles layer).getD attr ∅

/-- The topics of all roles. -/
def topics (roles : List Role) : NameSet :=
  (roles.flatMap (·.topics.toList)).foldl (·.insert ·) ∅

end MapGate.Grants
