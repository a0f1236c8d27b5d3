import MapGate.Capabilities.Links

/-!
# Replacing links

Every link is replaced wherever its text occurs, one link after the other. A
longer link comes before a shorter one, since the shorter may be part of it.
-/

namespace MapGate.Capabilities

/-- Whether a link is replaced before another: the longer one is, and of equally
long ones that which comes first in the alphabet. -/
def replacedBefore (s t : String) : Bool :=
  t.utf8ByteSize < s.utf8ByteSize || (t.utf8ByteSize == s.utf8ByteSize && s ≤ t)

/-- Each link once, in the order in which they are replaced. -/
def ordered (links : List String) : List String :=
  (links.mergeSort replacedBefore).eraseReps

/-- The links that change, each with its replacement. -/
def changes (replacement? : String → Option String) (links : List String) :
    List (String × String) :=
  links.filterMap fun link =>
    match replacement? link with
    | some new => if new = link then none else some (link, new)
    | none => none

/-- The text with each change made in turn. -/
def applyChanges (changes : List (String × String)) (text : String) : String :=
  changes.foldl (fun text (old, new) => Text.replace old new text) text

/-- The document with its links replaced, if that makes a difference. -/
def substitute? (replacement? : String → Option String) (document : String) : Option String :=
  let changes := changes replacement? (ordered (links document))
  if changes.isEmpty then none else some (applyChanges changes document)

end MapGate.Capabilities
