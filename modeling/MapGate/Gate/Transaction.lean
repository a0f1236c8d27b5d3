import MapGate.Gate.FeatureQuery

/-!
# Transactions

A `Transaction` document holds operations that change features. Each is checked
in the order of the document, and the first that is not permitted refuses the
whole document.
-/

namespace MapGate

namespace Transaction

/-- The type name of an operation, which has to give one. -/
def typeName (operation : Xml.Element) : Except GateError String :=
  match FeatureQuery.typeName? operation with
  | some typeName => .ok typeName
  | none => .error (.malformed (.noTypeName operation.localName))

/-- The name of a property that is updated: the text of the first child that
can name it. -/
def propertyName (property : Xml.Element) : Except GateError String :=
  let names := property.elements.filter fun e =>
    e.localName == "Name" || e.localName == "ValueReference"
  match (names.head?.map (·.text)).filter (· ≠ "") with
  | some name => .ok name
  | none => .error (.malformed .unnamedProperty)

end Transaction

namespace Check

/-- Checks an update: the layer, and each property that it changes. -/
def updateOperation (index : LayerIndex) (operation : Xml.Element) : Check Unit := do
  let typeName ← ofExcept (Transaction.typeName operation)
  let id ← requireLayer index typeName .update
  (operation.elementsNamed "Property").forM fun property => do
    let name ← ofExcept (Transaction.propertyName property)
    requireAttribute id typeName (attributeOf name) .edit

/-- Checks a new feature, whose name is that of its layer and whose children are
its properties. -/
def newFeature (index : LayerIndex) (feature : Xml.Element) : Check Unit := do
  let id ← requireLayer index feature.localName .insert
  feature.elements.forM fun property =>
    requireAttribute id feature.localName (attributeOf property.localName) .edit

/-- Checks an insertion of features. -/
def insertOperation (index : LayerIndex) (operation : Xml.Element) : Check Unit := do
  operation.elements.forM (newFeature index)
  require (!operation.elements.isEmpty) (.malformed .noFeatures)

/-- Checks a deletion. -/
def deleteOperation (index : LayerIndex) (operation : Xml.Element) : Check Unit := do
  let typeName ← ofExcept (Transaction.typeName operation)
  discard (requireLayer index typeName .delete)

/-- Checks one operation of a transaction. -/
def operation (index : LayerIndex) (operation : Xml.Element) : Check Unit :=
  if operation.localName = "Update" then updateOperation index operation
  else if operation.localName = "Insert" then insertOperation index operation
  else if operation.localName = "Delete" then deleteOperation index operation
  else fail (.denied (.unsupportedOperation operation.localName))

/-- Checks the root of a `Transaction` document. -/
def transaction (index : LayerIndex) (root : Xml.Element) : Check Unit := do
  root.elements.forM (operation index)
  require (!root.elements.isEmpty) (.malformed .noOperation)

end Check

end MapGate
