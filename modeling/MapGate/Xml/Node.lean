import MapGate.Text.Blank
import MapGate.Text.List
import MapGate.Text.QualifiedName

/-!
# Document trees

A document is a tree of elements with text, character data and comments in
them. Names, attributes and the order of children are kept as written. Names
are matched by their local part, since the prefix of a namespace is the
document's own choice.
-/

namespace MapGate.Xml

/-- A part of a document. -/
inductive Node where
  | element (name : String) (attributes : List (String × String)) (children : List Node)
  | text (content : String)
  | cdata (content : String)
  | comment (content : String)
  deriving BEq

/-- An element with its qualified name, its attributes and its content. -/
structure Element where
  name : String
  attributes : List (String × String)
  children : List Node
  deriving BEq

/-- The element as a part of a document. -/
def Element.toNode (e : Element) : Node := .element e.name e.attributes e.children

namespace Node

/-- The element that a node is. -/
def element? : Node → Option Element
  | element name attributes children => some ⟨name, attributes, children⟩
  | _ => none

/-- What a node says in words: its text or its character data. -/
def words : Node → List Char
  | text content | cdata content => content.toList
  | _ => []

@[simp] theorem element?_toNode (e : Element) : e.toNode.element? = some e := rfl

theorem toNode_of_element? {node : Node} {e : Element} (h : node.element? = some e) :
    e.toNode = node := by
  cases node <;> simp [element?] at h
  subst h; rfl

end Node

/-- Whether an attribute declares a namespace. -/
def isNamespaceDeclaration (key : String) : Bool :=
  key == "xmlns" || "xmlns:".toList.isPrefixOf key.toList

namespace Element

/-- An element that holds one text. -/
def ofText (name content : String) : Element := ⟨name, [], [.text content]⟩

/-- The local part of the name. -/
def localName (e : Element) : String := Text.localName e.name

/-- The namespace prefix of the name. -/
def namePrefix? (e : Element) : Option String := Text.namePrefix? e.name

/-- The first attribute of the given local name. Declarations of namespaces do
not count. -/
def attribute? (e : Element) (name : String) : Option String :=
  (e.attributes.find? fun entry =>
    !isNamespaceDeclaration entry.1 && Text.localName entry.1 == name).map (·.2)

/-- The child elements in their order. -/
def elements (e : Element) : List Element := e.children.filterMap Node.element?

/-- The child elements of the given local name. -/
def elementsNamed (e : Element) (name : String) : List Element :=
  e.elements.filter (·.localName == name)

/-- The text and character data directly in the element, trimmed. -/
def text (e : Element) : String :=
  String.ofList (Text.trimChars (e.children.flatMap Node.words))

end Element

/-- A document: its declaration, as written between `<?` and `?>`, and its root
element. -/
structure Document where
  declaration? : Option String
  root : Element

end MapGate.Xml
