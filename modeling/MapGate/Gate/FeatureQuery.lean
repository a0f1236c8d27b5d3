import MapGate.Gate.Selection
import MapGate.Xml.Node

/-!
# Feature queries in documents

A `GetFeature` document holds queries, each on one layer. The property names
that narrow a query are put in front of what it holds. Other children of the
document are not accepted, since they could name a layer in ways that the gate
does not see.
-/

namespace MapGate

namespace FeatureQuery

/-- The type name that an element gives, trimmed, unless it is blank. -/
def typeName? (e : Xml.Element) : Option String :=
  ((e.attribute? "typeName" <|> e.attribute? "typeNames").map Text.trim).filter (· ≠ "")

/-- Whether a type name is really a list of them. -/
def joinsLayers (typeName : String) : Bool :=
  typeName.toList.any fun c => c == ',' || Text.isBlank c

/-- The properties that a query asks for. -/
def requested (query : Xml.Element) : List String :=
  (query.elementsNamed "PropertyName").map (·.text)

/-- Decides what a query may ask for. -/
def check (index : LayerIndex) (query : Xml.Element) : Check Selection := do
  let typeName ← .ofExcept (match typeName? query with
    | some typeName => .ok typeName
    | none => .error (.malformed (.noTypeName "Query")))
  .require (!joinsLayers typeName) (.denied (.joinedLayers typeName))
  let id ← .requireLayer index typeName .query
  .selectProperties id typeName (requested query)

/-- An element that asks for a property, named in the namespace of the query. -/
def propertyElement (query : Xml.Element) (property : String) : Xml.Element :=
  .ofText (match query.namePrefix? with
    | some ns => s!"{ns}:PropertyName"
    | none => "PropertyName") property

/-- The query with its selection made. -/
def select (query : Xml.Element) : Selection → Xml.Element
  | .requested => query
  | .narrowed properties =>
    { query with
      children := properties.map (fun p => (propertyElement query p).toNode) ++ query.children }

end FeatureQuery

namespace Check

/-- Checks a node of a `GetFeature` document, and tells what becomes of it and
whether it changes. -/
def featureNode (index : LayerIndex) (node : Xml.Node) : Check (Xml.Node × Bool) :=
  match node.element? with
  | none => return (node, false)
  | some e => do
    require (e.localName == "Query") (.denied (.unsupportedChild e.name))
    let selection ← FeatureQuery.check index e
    return ((FeatureQuery.select e selection).toNode, selection.isNarrowed)

/-- Checks the root of a `GetFeature` document, and tells what becomes of it and
whether it changes. -/
def getFeature (index : LayerIndex) (root : Xml.Element) : Check (Xml.Element × Bool) := do
  let nodes ← root.children.mapM (featureNode index)
  require (!root.elements.isEmpty) (.malformed .noQuery)
  return ({ root with children := nodes.map (·.1) }, nodes.any (·.2))

end Check

end MapGate
