/-!
# What is wrong with a document

A document is refused for the first thing that is wrong with it, in the order
of its text.
-/

namespace MapGate.Xml

/-- Why bytes are not a document. -/
inductive Fault where
  | notUtf8
  /-- Markup that is not closed or does not start as any markup does. -/
  | markup
  /-- An end tag that closes no element, or not the innermost one. -/
  | endTag
  | attributes
  | entity
  | doctype
  | emptyDoctype
  | textOutsideRoot
  | severalRoots
  | strayEndTag
  | unclosedElement
  | noRoot
  deriving DecidableEq

/-- The words for a fault. -/
def Fault.message : Fault → String
  | notUtf8 => "invalid UTF-8"
  | markup => "markup is not well formed"
  | endTag => "end tag does not match its start tag"
  | attributes => "attribute is not well formed"
  | entity => "entity is not well formed"
  | doctype => "DOCTYPE is not allowed"
  | emptyDoctype => "DOCTYPE names no element"
  | textOutsideRoot => "text outside the root element"
  | severalRoots => "more than one root element"
  | strayEndTag => "unbalanced end tag"
  | unclosedElement => "unexpected end of document"
  | noRoot => "document has no root element"

end MapGate.Xml
