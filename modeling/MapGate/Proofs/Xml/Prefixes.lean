import Mathlib.Data.List.Forall2
import MapGate.Proofs.Xml.Elements

/-!
# Documents with other prefixes

The prefix of a namespace is the document's own choice. `Node.Reprefixed` relates two
documents that differ in these choices: elements may be in other namespaces, and a type
name or the name of a property may get a prefix. What the look-ups find is related in the
same way: the child elements (`Reprefixed.elements`), those of a local name
(`Reprefixed.elementsNamed`), type names (`Reprefixed.attribute?`) and names of properties
(`Reprefixed.text`).
-/

namespace MapGate

namespace Text

/-- A prefix does not count for the local name. -/
theorem localName_colon_append (ns name : String) :
    localName (ns ++ ":" ++ name) = localName name := by
  have colon : (ns.toList ++ ":".toList).reverse = ':' :: ns.toList.reverse := by simp
  rw [localName, localName, String.toList_append, String.toList_append, List.reverse_append, colon,
    List.takeWhile_append]
  split
  · rename_i whole
    rw [List.takeWhile_cons_of_neg (by simp), List.append_nil,
      (List.takeWhile_prefix _).eq_of_length whole]
  · rfl

/-- The same text, or one that says something with a prefix in front of it. There are no
commas or blanks in a prefix. -/
inductive Prefixed (s : String) : String → Prop
  | same : Prefixed s s
  | under (ns : String) (named : s ≠ "")
    (plain : ∀ c ∈ ns.toList, c ≠ ',' ∧ isBlank c = false) : Prefixed s (ns ++ ":" ++ s)

namespace Prefixed

variable {s s' : String}

/-- What makes a prefix can be computed. -/
theorem under_of_all (ns : String) (named : s ≠ "")
    (plain : (ns.toList.all fun c => c ≠ ',' && !isBlank c) = true) :
    Prefixed s (ns ++ ":" ++ s) :=
  .under ns named (by simpa using plain)

theorem localName (h : Prefixed s s') : Text.localName s' = Text.localName s := by
  cases h with
  | same => rfl
  | under ns => exact localName_colon_append ns s

theorem eq_empty_iff (h : Prefixed s s') : s' = "" ↔ s = "" := by
  cases h with
  | same => rfl
  | under ns named => simp [named]

/-- A text that says nothing does not count. -/
theorem filter_some {R : String → String → Prop} (h : Prefixed s s') (related : R s s') :
    Option.Rel R ((some s).filter (· ≠ "")) ((some s').filter (· ≠ "")) := by
  simp only [Option.filter_some, ne_eq, h.eq_empty_iff]
  split
  · exact .some related
  · exact .none

/-- No characters are added but those of a prefix and a colon. -/
theorem any_eq (h : Prefixed s s') {p : Char → Bool} (colon : p ':' = false)
    (plain : ∀ c, c ≠ ',' ∧ isBlank c = false → p c = false) : s'.toList.any p = s.toList.any p := by
  cases h with
  | same => rfl
  | under ns _ noBlank =>
    have front : ns.toList.any p = false := List.any_eq_false.2 fun c hc => by
      simp [plain c (noBlank c hc)]
    rw [String.toList_append, String.toList_append, List.any_append, List.any_append, front]
    simp [colon]

end Prefixed

end Text

namespace Xml

/-- The local names of the elements whose text is the name of a property. -/
def propertyTags : List String := ["PropertyName", "Name", "ValueReference"]

/-- The local names of the attributes that give type names. -/
def typeKeys : List String := ["typeName", "typeNames"]

/-- The same attribute, up to a prefix of the type name that it gives. -/
structure AttributeReprefixed (entry entry' : String × String) : Prop where
  key : entry'.1 = entry.1
  value : if Text.localName entry.1 ∈ typeKeys then Text.Prefixed (Text.trim entry.2) (Text.trim entry'.2)
    else entry'.2 = entry.2

/-- The same part of a document, up to prefixes. -/
inductive Node.Reprefixed : Node → Node → Prop
  /-- An element keeps its local name. If its text names a property, that may get a prefix;
  all other texts are kept. -/
  | element {name name' : String} {attributes attributes' : List (String × String)}
      {children children' : List Node}
      (renamed : Text.localName name' = Text.localName name)
      (given : List.Forall₂ AttributeReprefixed attributes attributes')
      (content : List.Forall₂ Reprefixed children children')
      (said : if Text.localName name ∈ propertyTags then
          Text.Prefixed (Element.text ⟨name, attributes, children⟩)
            (Element.text ⟨name', attributes', children'⟩)
        else children'.map words = children.map words) :
      Reprefixed (.element name attributes children) (.element name' attributes' children')
  /-- What texts say is up to the element that they are in. -/
  | text (content content' : String) : Reprefixed (.text content) (.text content')
  | cdata (content content' : String) : Reprefixed (.cdata content) (.cdata content')
  | comment (content : String) : Reprefixed (.comment content) (.comment content)

/-- The same element, up to prefixes. -/
def Element.Reprefixed (e e' : Element) : Prop := e.toNode.Reprefixed e'.toNode

theorem Node.Reprefixed.element? {node node' : Node} (h : node.Reprefixed node') :
    Option.Rel Element.Reprefixed node.element? node'.element? := by
  cases h with
  | element renamed given content said => exact .some (.element renamed given content said)
  | text | cdata | comment => exact .none

namespace Element.Reprefixed

variable {e e' : Element}

theorem localName (h : e.Reprefixed e') : e'.localName = e.localName := by
  cases h with
  | element renamed => exact renamed

theorem attributes (h : e.Reprefixed e') :
    List.Forall₂ AttributeReprefixed e.attributes e'.attributes := by
  cases h with
  | element _ given => exact given

theorem children (h : e.Reprefixed e') : List.Forall₂ Node.Reprefixed e.children e'.children := by
  cases h with
  | element _ _ content => exact content

theorem said (h : e.Reprefixed e') :
    if e.localName ∈ propertyTags then Text.Prefixed e.text e'.text
    else e'.children.map Node.words = e.children.map Node.words := by
  cases h with
  | element _ _ _ said => exact said

/-! ## Look-ups -/

theorem elements (h : e.Reprefixed e') :
    List.Forall₂ Element.Reprefixed e.elements e'.elements :=
  List.rel_filterMap (fun _ _ h => Node.Reprefixed.element? h) h.children

theorem elements_isEmpty (h : e.Reprefixed e') : e'.elements.isEmpty = e.elements.isEmpty := by
  have elements := h.elements
  generalize e.elements = l at elements
  generalize e'.elements = l' at elements
  cases elements <;> rfl

/-- The child elements whose local name is of some kind. -/
theorem filter_elements (h : e.Reprefixed e') (p : String → Bool) :
    List.Forall₂ (fun child child' => p child.localName ∧ child.Reprefixed child')
      (e.elements.filter (p ·.localName)) (e'.elements.filter (p ·.localName)) := by
  refine (List.forall₂_and_left _ _).2 ⟨fun child hc => (List.mem_filter.1 hc).2, ?_⟩
  exact List.rel_filter (fun _ _ h => by simp only [localName h]) h.elements

theorem elementsNamed (h : e.Reprefixed e') (name : String) :
    List.Forall₂ (fun child child' => child.localName = name ∧ child.Reprefixed child')
      (e.elementsNamed name) (e'.elementsNamed name) :=
  (h.filter_elements (· == name)).imp fun _ _ h => ⟨beq_iff_eq.1 h.1, h.2⟩

theorem attribute? (h : e.Reprefixed e') (name : String) (gives : name ∈ typeKeys) :
    Option.Rel (fun value value' => Text.Prefixed (Text.trim value) (Text.trim value'))
      (e.attribute? name) (e'.attribute? name) := by
  rw [Element.attribute?, Element.attribute?]
  have same := h.attributes
  generalize e.attributes = l at same
  generalize e'.attributes = l' at same
  induction same with
  | nil => exact .none
  | @cons entry entry' attributes attributes' first _ ih =>
    rw [List.find?_cons, List.find?_cons, first.key]
    split
    · rename_i named
      have value := first.value
      rw [if_pos] at value
      · exact .some value
      · rw [← named_iff] at named
        rwa [named.2]
    · exact ih

/-- The name of a property in an element. -/
theorem text (h : e.Reprefixed e') (names : e.localName ∈ propertyTags) :
    Text.Prefixed e.text e'.text := by
  have said := h.said
  rwa [if_pos names] at said

/-! ## Changed content -/

/-- Other content in both elements that says the same. -/
theorem withChildren (h : e.Reprefixed e') {children children' : List Node}
    (content : List.Forall₂ Node.Reprefixed children children')
    (same : children.flatMap Node.words = e.children.flatMap Node.words)
    (same' : children'.flatMap Node.words = e'.children.flatMap Node.words)
    (kept : e'.children.map Node.words = e.children.map Node.words →
      children'.map Node.words = children.map Node.words) :
    Element.Reprefixed { e with children } { e' with children := children' } := by
  refine .element h.localName h.attributes content ?_
  have said := h.said
  show if e.localName ∈ propertyTags then _ else _
  split <;> rename_i names
  · rw [if_pos names] at said
    rwa [Element.text, Element.text, same, same']
  · rw [if_neg names] at said
    exact kept said

end Element.Reprefixed

end Xml

end MapGate
