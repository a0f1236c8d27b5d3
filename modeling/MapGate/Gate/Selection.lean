import MapGate.Gate.Require

/-!
# Selected properties

A feature query may ask for properties by name. Then all of them must be
viewable, and at least one must be more than the geometry, which is always
returned. A query that asks for none is narrowed to the geometry and the
viewable attributes of its layer.
-/

namespace MapGate

/-- The property that holds the geometry of a feature. -/
def geometryProperty : String := "geometry"

/-- What a query is to ask for. -/
inductive Selection where
  /-- What it asks for already. -/
  | requested
  /-- These properties. -/
  | narrowed (properties : List String)
  deriving DecidableEq

namespace Selection

/-- The properties that are asked for, when a query asked for `requested`. -/
def properties (requested : List String) : Selection → List String
  | .requested => requested
  | narrowed properties => properties

/-- Whether the query changes. -/
def isNarrowed : Selection → Bool
  | .requested => false
  | narrowed _ => true

end Selection

/-- The attributes among some property names. -/
def requestedAttributes (requested : List String) : List String :=
  (requested.map attributeOf).filter (· ≠ geometryProperty)

/-- The attributes with a permission to view them, besides the geometry. -/
def viewableAttributes (attributes : NameMap Flags) : List String :=
  (attributes.toList.filter fun (name, flags) =>
    name ≠ geometryProperty && flags.has Permission.view.tag).map (·.1)

namespace Check

/-- Decides what a query on a layer may ask for. -/
def selectProperties (id typeName : String) (requested : List String) : Check Selection :=
  if requested.isEmpty then do
    let viewable := viewableAttributes (← attributesFlags id)
    require (!viewable.isEmpty) (.denied (.noViewableAttribute typeName))
    return .narrowed (geometryProperty :: viewable)
  else do
    (requestedAttributes requested).forM (requireAttribute id typeName · .view)
    require (!(requestedAttributes requested).isEmpty) (.denied (.noAttributeSelected typeName))
    return .requested

end Check

end MapGate
