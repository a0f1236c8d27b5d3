import MapGate.Xml.Node

/-!
# Texts that stand next to each other

Two texts that stand next to each other are written as one, and empty texts are
not written at all. `Element.joined` is the element without such texts, and what
is looked up in it is what is looked up in the element: its child elements are
joined as well (`elements_joined`), and its text is the same (`text_joined`).
-/

namespace MapGate.Xml

/-- The node of a text, if there is one. -/
def textNode (l : List Char) : List Node := if l = [] then [] else [.text (String.ofList l)]

/-- Nodes behind a text, with texts that stand next to each other made one. -/
def mergeTexts (pending : List Char) : List Node → List Node
  | [] => textNode pending
  | .text content :: nodes => mergeTexts (pending ++ content.toList) nodes
  | node :: nodes => textNode pending ++ node :: mergeTexts [] nodes

mutual

/-- The node with texts made one throughout. -/
def Node.joined : Node → Node
  | .element name attributes children =>
    .element name attributes (mergeTexts [] (Node.allJoined children))
  | .text content => .text content
  | .cdata content => .cdata content
  | .comment content => .comment content

/-- Each node with texts made one throughout. -/
def Node.allJoined : List Node → List Node
  | [] => []
  | node :: nodes => node.joined :: Node.allJoined nodes

end

/-- The element with texts made one throughout. -/
def Element.joined (e : Element) : Element :=
  ⟨e.name, e.attributes, mergeTexts [] (Node.allJoined e.children)⟩

/-- A part that is no text stands between what is before it and what is behind. -/
theorem append_mergeTexts_cons {node : Node} (h : ∀ content, node ≠ .text content)
    (before : List Node) (pending : List Char) (nodes : List Node) :
    before ++ mergeTexts pending (node :: nodes) =
      before ++ textNode pending ++ [node] ++ mergeTexts [] nodes := by
  cases node with
  | text content => exact absurd rfl (h content)
  | _ => simp [mergeTexts]

namespace Node

theorem allJoined_eq_map (nodes : List Node) : allJoined nodes = nodes.map joined := by
  induction nodes with
  | nil => rw [allJoined, List.map_nil]
  | cons node nodes ih => rw [allJoined, ih, List.map_cons]

theorem element?_joined (node : Node) : node.joined.element? = node.element?.map Element.joined := by
  cases node <;> rfl

theorem words_joined (node : Node) : node.joined.words = node.words := by
  cases node <;> rfl

end Node

theorem filterMap_element?_textNode (l : List Char) :
    (textNode l).filterMap Node.element? = [] := by
  rw [textNode]
  split <;> rfl

theorem flatMap_words_textNode (l : List Char) : (textNode l).flatMap Node.words = l := by
  rw [textNode]
  split
  · rename_i h; rw [h]; rfl
  · simp [Node.words]

theorem filterMap_element?_mergeTexts (pending : List Char) (nodes : List Node) :
    (mergeTexts pending nodes).filterMap Node.element? = nodes.filterMap Node.element? := by
  induction nodes generalizing pending with
  | nil => exact filterMap_element?_textNode pending
  | cons node nodes ih =>
    cases node with
    | text content => rw [mergeTexts, ih]; rfl
    | _ => simp [mergeTexts, List.filterMap_append, filterMap_element?_textNode, List.filterMap_cons, ih]

theorem flatMap_words_mergeTexts (pending : List Char) (nodes : List Node) :
    (mergeTexts pending nodes).flatMap Node.words = pending ++ nodes.flatMap Node.words := by
  induction nodes generalizing pending with
  | nil => rw [mergeTexts, flatMap_words_textNode, List.flatMap_nil, List.append_nil]
  | cons node nodes ih =>
    cases node with
    | text content => rw [mergeTexts, ih, List.flatMap_cons, List.append_assoc]; rfl
    | _ => simp [mergeTexts, flatMap_words_textNode, ih]

namespace Element

theorem elements_joined (e : Element) : e.joined.elements = e.elements.map joined := by
  rw [elements, joined, filterMap_element?_mergeTexts, Node.allJoined_eq_map, List.filterMap_map,
    elements, List.map_filterMap]
  exact congrArg (List.filterMap · e.children) (funext Node.element?_joined)

theorem elementsNamed_joined (e : Element) (name : String) :
    e.joined.elementsNamed name = (e.elementsNamed name).map joined := by
  rw [elementsNamed, elements_joined, List.filter_map]
  rfl

@[simp] theorem text_joined (e : Element) : e.joined.text = e.text := by
  have words : (fun node : Node => node.joined.words) = Node.words := funext Node.words_joined
  rw [text, joined, flatMap_words_mergeTexts, Node.allJoined_eq_map, List.flatMap_map,
    List.nil_append, words]
  rfl

end Element

end MapGate.Xml
