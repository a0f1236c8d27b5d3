import MapGate.Xml.Entity
import MapGate.Xml.Node

/-!
# Written documents

The text of a document: the declaration first, then the root element. An
element without children is one tag.
-/

namespace MapGate.Xml

/-- The attributes of a tag, each after a space and in double quotes. -/
def renderAttributes (attributes : List (String × String)) : List Char :=
  attributes.flatMap fun (key, value) =>
    ' ' :: key.toList ++ '=' :: '"' :: escape value.toList ++ ['"']

mutual

/-- The text of a node. -/
def Node.render : Node → List Char
  | .element name attributes children =>
    let tag := '<' :: name.toList ++ renderAttributes attributes
    if children.isEmpty then tag ++ ['/', '>']
    else tag ++ '>' :: Node.renderAll children ++ '<' :: '/' :: name.toList ++ ['>']
  | .text content => escape content.toList
  | .cdata content => "<![CDATA[".toList ++ content.toList ++ "]]>".toList
  | .comment content => "<!--".toList ++ content.toList ++ "-->".toList

/-- The texts of some nodes, one after the other. -/
def Node.renderAll : List Node → List Char
  | [] => []
  | node :: nodes => node.render ++ Node.renderAll nodes

end

namespace Node

theorem render_element (name : String) (attributes : List (String × String))
    (children : List Node) : (element name attributes children).render =
      if children.isEmpty then '<' :: name.toList ++ renderAttributes attributes ++ ['/', '>']
      else '<' :: name.toList ++ renderAttributes attributes ++ '>' :: renderAll children ++
        '<' :: '/' :: name.toList ++ ['>'] := rfl

theorem render_text (content : String) : (text content).render = escape content.toList := rfl

theorem render_cdata (content : String) :
    (cdata content).render = "<![CDATA[".toList ++ content.toList ++ "]]>".toList := rfl

theorem render_comment (content : String) :
    (comment content).render = "<!--".toList ++ content.toList ++ "-->".toList := rfl

theorem renderAll_cons (node : Node) (nodes : List Node) :
    renderAll (node :: nodes) = node.render ++ renderAll nodes := rfl

end Node

/-- The text of a document. -/
def Document.render (document : Document) : String :=
  let declaration := match document.declaration? with
    | some content => "<?".toList ++ content.toList ++ "?>".toList
    | none => []
  String.ofList (declaration ++ document.root.toNode.render)

end MapGate.Xml
