import MapGate.Xml.Attribute
import MapGate.Xml.Node

/-!
# Trees of events

`Document.ofEvents` builds the tree that the events of a document describe. A
document has one root element; outside of it there is only blank text, and
comments, character data and instructions there are dropped. Document types are
not accepted.
-/

namespace MapGate.Xml

/-- An element whose end tag is still to come, with its content so far, the last
part first. -/
structure OpenElement where
  name : String
  attributes : List (String × String)
  content : List Node

/-- The element with the content it has so far. -/
def OpenElement.close (e : OpenElement) : Element := ⟨e.name, e.attributes, e.content.reverse⟩

/-- A tree under construction. -/
structure Builder where
  declaration? : Option String := none
  /-- The open elements, the innermost first. -/
  opened : List OpenElement := []
  root? : Option Element := none

namespace Builder

/-- Puts a node into the innermost open element, if there is one. -/
def place (builder : Builder) (node : Node) : Builder :=
  match builder.opened with
  | innermost :: outer =>
    { builder with opened := { innermost with content := node :: innermost.content } :: outer }
  | [] => builder

/-- Puts an element where it belongs: into the innermost open element, or at the
root. -/
def attach (builder : Builder) (e : Element) : Except Fault Builder :=
  if !builder.opened.isEmpty then .ok (builder.place e.toNode)
  else match builder.root? with
    | none => .ok { builder with root? := some e }
    | some _ => .error .severalRoots

/-- Takes the next event. -/
def step (builder : Builder) : Event → Except Fault Builder
  | .start tag => do
    let attributes ← tag.attributes
    .ok { builder with opened := ⟨tag.name, attributes, []⟩ :: builder.opened }
  | .empty tag => do
    let attributes ← tag.attributes
    builder.attach ⟨tag.name, attributes, []⟩
  | .close _ =>
    match builder.opened with
    | innermost :: outer => { builder with opened := outer }.attach innermost.close
    | [] => .error .strayEndTag
  | .text written =>
    match unescape? written with
    | none => .error .entity
    | some text =>
      if builder.opened.isEmpty && !text.all Text.isBlank then .error .textOutsideRoot
      else .ok (builder.place (.text (String.ofList text)))
  | .cdata content => .ok (builder.place (.cdata content))
  | .comment content => .ok (builder.place (.comment content))
  | .declaration content => .ok { builder with declaration? := some content }
  | .doctype => .error .doctype
  | .instruction => .ok builder

/-- The document, when no more events come. -/
def finish (builder : Builder) : Except Fault Document :=
  if !builder.opened.isEmpty then .error .unclosedElement
  else match builder.root? with
    | some root => .ok ⟨builder.declaration?, root⟩
    | none => .error .noRoot

end Builder

namespace Document

/-- The document that some events describe, up to the fault that ended them. -/
def ofEvents (events : List Event) (fault? : Option Fault) : Except Fault Document := do
  let builder ← events.foldlM Builder.step {}
  match fault? with
  | some fault => .error fault
  | none => builder.finish

/-- The document of a text. -/
def ofChars (text : List Char) : Except Fault Document :=
  ofEvents (events text).1 (events text).2

/-- The document that some bytes are. -/
def ofBytes (bytes : ByteArray) : Except Fault Document :=
  match String.fromUTF8? bytes with
  | some text => ofChars text.toList
  | none => .error .notUtf8

end Document

end MapGate.Xml
