import MapGate.Proofs.Text.Named
import MapGate.Proofs.Text.Trimming
import MapGate.Xml.Node

/-!
# Looking into elements

What the look-ups of an element find, said of its lists of attributes and
children: `attribute?_eq_some_iff` for the first attribute of a local name,
`trim_text` for the text. What holds of each part of a tree is `Node.Every`.
-/

namespace MapGate.Xml

/-- The key of an attribute has the given local name and declares no
namespace. -/
def Named (key name : String) : Prop :=
  isNamespaceDeclaration key = false ∧ Text.localName key = name

namespace Element

variable {e : Element} {name value : String}

/-- The first attribute of the given local name has the given value. -/
def FirstAttribute (e : Element) (name value : String) : Prop :=
  ∃ before key after, e.attributes = before ++ (key, value) :: after ∧ Named key name ∧
    ∀ entry ∈ before, ¬ Named entry.1 name

/-- No attribute has the given local name. -/
def NoAttribute (e : Element) (name : String) : Prop :=
  ∀ entry ∈ e.attributes, ¬ Named entry.1 name

theorem named_iff {key : String} :
    Named key name ↔ (!isNamespaceDeclaration key && Text.localName key == name) = true := by
  simp [Named]

theorem attribute?_eq_some_iff : e.attribute? name = some value ↔ e.FirstAttribute name value := by
  simp only [attribute?, FirstAttribute, named_iff]
  exact Text.find?_name_eq_some_iff
    (p := fun key => !isNamespaceDeclaration key && Text.localName key == name)

theorem attribute?_eq_none_iff : e.attribute? name = none ↔ e.NoAttribute name := by
  simp only [attribute?, Option.map_eq_none_iff, List.find?_eq_none, ← named_iff, NoAttribute]

/-- The text of an element is trimmed. -/
@[simp] theorem trim_text (e : Element) : Text.trim e.text = e.text := Text.trim_ofList_trimChars _

@[simp] theorem text_ofText (name content : String) : (ofText name content).text = Text.trim content := by
  simp [text, ofText, Node.words, Text.trim]

end Element

/-! ## All parts of a tree -/

namespace Node

variable {p q : Node → Prop}

mutual

/-- A property of a node and of everything in it. -/
def Every (p : Node → Prop) : Node → Prop
  | element name attributes children => p (element name attributes children) ∧ EveryIn p children
  | text content => p (text content)
  | cdata content => p (cdata content)
  | comment content => p (comment content)

/-- A property of some nodes and of everything in them. -/
def EveryIn (p : Node → Prop) : List Node → Prop
  | [] => True
  | node :: nodes => node.Every p ∧ EveryIn p nodes

end

theorem everyIn_iff {nodes : List Node} : EveryIn p nodes ↔ ∀ node ∈ nodes, node.Every p := by
  induction nodes with
  | nil => simp [EveryIn]
  | cons node nodes ih => rw [EveryIn, ih, List.forall_mem_cons]

theorem every_element {name : String} {attributes : List (String × String)} {children : List Node} :
    (element name attributes children).Every p ↔
      p (element name attributes children) ∧ ∀ node ∈ children, node.Every p := by
  rw [Every, everyIn_iff]

theorem Every.self {node : Node} (h : node.Every p) : p node := by
  cases node with
  | element name attributes children => exact (every_element.1 h).1
  | _ => rwa [Every] at h

theorem every_of_element?_eq_none {node : Node} (hn : node.element? = none) (h : p node) :
    node.Every p := by
  cases node with
  | element name attributes children => cases hn
  | _ => rwa [Every]

mutual

theorem Every.imp (h : ∀ node, p node → q node) : ∀ node : Node, node.Every p → node.Every q
  | element name attributes children, he => by
    rw [Every] at he ⊢
    exact ⟨h _ he.1, EveryIn.imp h children he.2⟩
  | text content, he => by rw [Every] at he ⊢; exact h _ he
  | cdata content, he => by rw [Every] at he ⊢; exact h _ he
  | comment content, he => by rw [Every] at he ⊢; exact h _ he

theorem EveryIn.imp (h : ∀ node, p node → q node) :
    ∀ nodes : List Node, EveryIn p nodes → EveryIn q nodes
  | [], _ => by rw [EveryIn]; trivial
  | node :: nodes, he => by
    rw [EveryIn] at he ⊢
    exact ⟨Every.imp h node he.1, EveryIn.imp h nodes he.2⟩

end

end Node

theorem Element.every_toNode {p : Node → Prop} {e : Element} :
    e.toNode.Every p ↔ p e.toNode ∧ ∀ node ∈ e.children, node.Every p :=
  Node.every_element

end MapGate.Xml
