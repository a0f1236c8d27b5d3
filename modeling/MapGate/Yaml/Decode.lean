import MapGate.Policy.Settings
import MapGate.Text.Number
import MapGate.Yaml.Node

/-!
# Values in documents

What a node means depends on what is expected in its place. A text takes any
scalar as it is written. Where a list, a table or a record is expected, a value
that is not written at all counts as an empty one. A record takes each of its
fields at most once and ignores other keys, while in a table the last of equal
keys counts.
-/

namespace MapGate.Yaml

/-- Whether a scalar is one that nobody wrote. -/
def isNothing (style : Style) (text : String) : Bool := style == .plain && text == ""

/-- The words for no value. -/
def isNull (text : String) : Bool :=
  text == "~" || text == "null" || text == "Null" || text == "NULL"

namespace Document

variable {α : Type} (document : Document)

/-- The text of a scalar. -/
def text? (node : Node) : Option String := do
  match ← document.target? node with
  | .scalar _ _ _ text => some text
  | _ => none

/-- The items of a sequence. -/
def items? (node : Node) : Option (List Node) := do
  match ← document.target? node with
  | .sequence _ _ items => some items
  | .scalar _ _ style text => if isNothing style text then some [] else none
  | _ => none

/-- The entries of a mapping. -/
def entries? (node : Node) : Option (List (Node × Node)) := do
  match ← document.target? node with
  | .mapping _ _ entries => some entries
  | .scalar _ _ style text => if isNothing style text then some [] else none
  | _ => none

/-- The entries of a mapping whose keys are texts. -/
def keyed? (node : Node) : Option (List (String × Node)) := do
  (← document.entries? node).mapM fun (key, value) => return (← document.text? key, value)

/-- A list of values. -/
def list? (read? : Node → Option α) (node : Node) : Option (List α) := do
  (← document.items? node).mapM read?

/-- A set of texts. -/
def set? (node : Node) : Option NameSet := do
  return .ofList (← document.list? document.text? node)

/-- A table. -/
def table? (read? : Node → Option α) (node : Node) : Option (NameMap α) := do
  return .ofList (← (← document.keyed? node).mapM fun (key, value) => return (key, ← read? value))

/-- The word that a tag is, without its mark. -/
def tagWord (tag : String) : String :=
  match tag.toList with
  | '!' :: word => .ofList word
  | _ => tag

/-- A word that has a meaning. It may also be given as a tag without a value. -/
def keyword? (ofKeyword? : String → Option α) (node : Node) : Option α := do
  match ← document.target? node with
  | .scalar _ none _ text => ofKeyword? text
  | .scalar _ (some tag) style text =>
    if style == .plain && (text == "" || isNull text) then ofKeyword? (tagWord tag) else none
  | _ => none

/-- A value that may be missing. -/
def optional? (read? : Node → Option α) (node : Node) : Option (Option α) := do
  match ← document.target? node with
  | .scalar _ none .plain text =>
    if text == "" || isNull text then some none else (read? node).map some
  | .scalar _ (some tag) .plain text =>
    if tag == "tag:yaml.org,2002:null" then if isNull text then some none else none
    else (read? node).map some
  | _ => (read? node).map some

/-- The number that digits of a base write, if it has at most 64 bits. -/
def word? (base : Nat) (digits : List Char) : Option Nat :=
  (Text.number? base digits).filter (· < Nat.pow 2 64)

/-- The number that a text writes: in base ten without needless zeros, or with a
mark for another base. -/
def number? (text : List Char) : Option Nat :=
  let unsigned := match text with
    | '+' :: rest => rest
    | _ => text
  let marked := match unsigned with
    | '0' :: 'x' :: rest => word? 16 rest
    | '0' :: 'o' :: rest => word? 8 rest
    | '0' :: 'b' :: rest => word? 2 rest
    | _ => none
  match marked with
  | some n => some n
  | none =>
    if 1 < unsigned.length ∧ unsigned.head? = some '0' then none else word? 10 unsigned

/-- A whole number of at most 64 bits. -/
def size? (node : Node) : Option Nat := do
  match ← document.target? node with
  | .scalar _ _ .plain text => number? text.toList
  | .scalar _ (some "tag:yaml.org,2002:int") .literal text => number? text.toList
  | _ => none

/-! ## Records -/

/-- The fields of a record by name. -/
structure Fields where
  entries : List (String × Node)

/-- The fields of a record that has the given ones, each of which occurs at most
once. -/
def fields? (names : List String) (node : Node) : Option Fields := do
  let entries := (← document.keyed? node).filter fun entry => names.contains entry.1
  if (entries.map (·.1)).Nodup then some ⟨entries⟩ else none

/-- The fields of a document, whose root is a record. -/
def rootFields? (names : List String) : Option Fields :=
  match document.root? with
  | some root => document.fields? names root
  | none => some ⟨[]⟩

end Document

namespace Document.Fields

variable {α : Type}

/-- A field that has to be there. -/
def required? (fields : Fields) (name : String) (read? : Node → Option α) : Option α :=
  (fields.entries.lookup name).bind read?

/-- A field with a value for the case that it is missing. -/
def getD? (fields : Fields) (name : String) (read? : Node → Option α) (default : α) : Option α :=
  match fields.entries.lookup name with
  | some node => read? node
  | none => some default

end Document.Fields

end MapGate.Yaml
