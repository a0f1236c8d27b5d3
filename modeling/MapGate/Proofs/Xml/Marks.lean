import Mathlib.Data.List.Forall2
import MapGate.Proofs.Xml.Attributes
import MapGate.Xml.Node

/-!
# What pieces and trees say

A tree is written down in document order as a list of marks, one for the start of each
element, one for its end, and one for each part of its content (`Node.marks`). The pieces of a
document say such marks as well (`Event.Says`, `Says`): a tag that is start and end at once
says two, and declarations and instructions say nothing.

A piece says something when it can be read (`readable_iff`): the attributes of a tag are
listed well, with different keys and values that can be unescaped
(`attributes_eq_ok_iff`), a text can be unescaped, and it is no document type.
-/

namespace MapGate.Xml

/-! ## Attributes -/

/-- Some characters list attributes, one after the other, with their values as they are
written. -/
inductive ListsAttributes : List Char → List (List Char × List Char) → Prop
  | nil {l} : l.dropWhile isSpace = [] → ListsAttributes l []
  | cons {l key written rest entries} :
      readAttribute? (l.dropWhile isSpace) = some ((key, written), rest) →
        ListsAttributes rest entries → ListsAttributes l ((key, written) :: entries)

/-- An attribute as it is written has the key and, with its entities read, the value of
another. -/
def StandsFor (entry : List Char × List Char) (pair : String × String) : Prop :=
  String.ofList entry.1 = pair.1 ∧ (unescape? entry.2).map String.ofList = some pair.2

/-- A tag lists attributes with different keys, which stand for the given ones. -/
def Tag.Has (tag : Tag) (attributes : List (String × String)) : Prop :=
  ∃ entries, ListsAttributes tag.rest entries ∧ (entries.map (·.1)).Nodup ∧
    List.Forall₂ StandsFor entries attributes

theorem dropWhile_eq_nil_of_attributesFrom {seen : List String} {l : List Char}
    (h : attributesFrom seen l = .ok []) : l.dropWhile isSpace = [] := by
  rw [attributesFrom] at h
  split at h
  · rename_i blank
    exact List.isEmpty_iff.1 blank
  · split at h
    · cases h
    · dsimp only at h
      split at h
      · cases h
      · split at h
        · cases h
        · rename_i key _ rest _ _ _ _ _
          cases ha : attributesFrom (String.ofList key :: seen) rest <;> rw [ha] at h <;> cases h

/-- The attributes that are read behind others are those that are listed, with other keys. -/
theorem attributesFrom_eq_ok_iff {seen : List String} {l : List Char}
    {attributes : List (String × String)} : attributesFrom seen l = .ok attributes ↔
      ∃ entries, ListsAttributes l entries ∧ (entries.map (·.1)).Nodup ∧
        (∀ entry ∈ entries, String.ofList entry.1 ∉ seen) ∧
        List.Forall₂ StandsFor entries attributes := by
  constructor
  · intro h
    induction attributes generalizing seen l with
    | nil =>
      exact ⟨[], .nil (dropWhile_eq_nil_of_attributesFrom h), List.nodup_nil,
        List.forall_mem_nil _, .nil⟩
    | cons pair attributes ih =>
      obtain h | ⟨key, written, rest, value, attributes', hr, new, hu, ha, e⟩ :=
        attributesFrom_eq_ok h
      · cases h
      obtain ⟨rfl, rfl⟩ := List.cons.inj e
      obtain ⟨entries, listed, distinct, unseen, stand⟩ := ih ha
      refine ⟨(key, written) :: entries, .cons hr listed, ?_, ?_, .cons ⟨rfl, by rw [hu]; rfl⟩ stand⟩
      · refine List.nodup_cons.2 ⟨fun hm => ?_, distinct⟩
        obtain ⟨entry, he, same⟩ := List.mem_map.1 hm
        exact unseen entry he (same ▸ List.mem_cons_self)
      · refine List.forall_mem_cons.2 ⟨new, fun entry he hm => ?_⟩
        exact unseen entry he (List.mem_cons_of_mem _ hm)
  · rintro ⟨entries, listed, distinct, unseen, stand⟩
    induction listed generalizing seen attributes with
    | nil blank =>
      cases stand
      exact attributesFrom_blank blank
    | @cons l key written rest entries hr _ ih =>
      cases stand with
      | cons first others =>
        obtain ⟨new, unseen⟩ := List.forall_mem_cons.1 unseen
        obtain ⟨own, distinct⟩ := List.nodup_cons.1 distinct
        obtain ⟨value, hu, same⟩ := Option.map_eq_some_iff.1 first.2
        have unseen' : ∀ entry ∈ entries, String.ofList entry.1 ∉ String.ofList key :: seen :=
          fun entry he hm => by
            rcases List.mem_cons.1 hm with e | hm
            · exact own (List.mem_map.2 ⟨entry, he, String.ofList_inj.1 e⟩)
            · exact unseen entry he hm
        rw [attributesFrom_cons hr new hu, ih distinct unseen' others]
        exact congrArg Except.ok (congrArg (· :: _) (Prod.ext first.1 same))

/-- The attributes that are read from a tag are those that it has. -/
theorem attributes_eq_ok_iff {tag : Tag} {attributes : List (String × String)} :
    tag.attributes = .ok attributes ↔ tag.Has attributes := by
  rw [Tag.attributes, attributesFrom_eq_ok_iff, Tag.Has]
  simp only [List.not_mem_nil, not_false_eq_true, implies_true, true_and]

/-! ## Marks -/

/-- A part of a tree written down in document order. -/
inductive Mark where
  | start (name : String) (attributes : List (String × String))
  | stop (name : String)
  | text (content : String)
  | cdata (content : String)
  | comment (content : String)

mutual

/-- A node written down in document order. -/
def Node.marks : Node → List Mark
  | .element name attributes children =>
    .start name attributes :: (Node.allMarks children ++ [.stop name])
  | .text content => [.text content]
  | .cdata content => [.cdata content]
  | .comment content => [.comment content]

/-- Some nodes written down in document order. -/
def Node.allMarks : List Node → List Mark
  | [] => []
  | node :: nodes => node.marks ++ Node.allMarks nodes

end

theorem Node.allMarks_append (nodes nodes' : List Node) :
    allMarks (nodes ++ nodes') = allMarks nodes ++ allMarks nodes' := by
  induction nodes with
  | nil => rfl
  | cons node nodes ih => rw [List.cons_append, allMarks, ih, allMarks, List.append_assoc]

/-- What a piece says, with its attributes and entities read. -/
inductive Event.Says : Event → List Mark → Prop
  | start {tag attributes} : tag.Has attributes → Says (.start tag) [.start tag.name attributes]
  | empty {tag attributes} : tag.Has attributes →
      Says (.empty tag) [.start tag.name attributes, .stop tag.name]
  | close {name} : Says (.close name) [.stop name]
  | text {written content} : unescape? written = some content →
      Says (.text written) [.text (String.ofList content)]
  | cdata {content} : Says (.cdata content) [.cdata content]
  | comment {content} : Says (.comment content) [.comment content]
  | declaration {content} : Says (.declaration content) []
  | instruction : Says .instruction []

/-- What some pieces say one after the other. -/
inductive Says : List Event → List Mark → Prop
  | nil : Says [] []
  | cons {event events marks marks'} : event.Says marks → Says events marks' →
      Says (event :: events) (marks ++ marks')

theorem Says.append {events events' : List Event} {marks marks' : List Mark}
    (h : Says events marks) (h' : Says events' marks') : Says (events ++ events') (marks ++ marks') := by
  induction h with
  | nil => exact h'
  | cons first _ ih =>
    rw [List.append_assoc]
    exact .cons first ih

theorem Says.single {event : Event} {marks : List Mark} (h : event.Says marks) :
    Says [event] marks :=
  List.append_nil marks ▸ .cons h .nil

/-- Pieces that can be read: none is a document type, tags have attributes and texts can be
unescaped. -/
structure Readable (events : List Event) : Prop where
  doctype : .doctype ∉ events
  attributes : ∀ tag, .start tag ∈ events ∨ .empty tag ∈ events → ∃ attributes, tag.Has attributes
  texts : ∀ written, .text written ∈ events → ∃ content, unescape? written = some content

/-- Pieces can be read when each says something. -/
theorem readable_iff {events : List Event} :
    Readable events ↔ ∀ event ∈ events, ∃ marks, event.Says marks := by
  constructor
  · intro h event hm
    cases event with
    | start tag =>
      obtain ⟨_, has⟩ := h.attributes tag (.inl hm)
      exact ⟨_, .start has⟩
    | empty tag =>
      obtain ⟨_, has⟩ := h.attributes tag (.inr hm)
      exact ⟨_, .empty has⟩
    | text written =>
      obtain ⟨_, read⟩ := h.texts written hm
      exact ⟨_, .text read⟩
    | close name => exact ⟨_, .close⟩
    | cdata content => exact ⟨_, .cdata⟩
    | comment content => exact ⟨_, .comment⟩
    | declaration content => exact ⟨_, .declaration⟩
    | instruction => exact ⟨_, .instruction⟩
    | doctype => exact absurd hm h.doctype
  · refine fun told => ⟨fun hm => ?_, fun tag hm => ?_, fun written hm => ?_⟩
    · obtain ⟨_, h⟩ := told _ hm
      cases h
    · rcases hm with hm | hm
      · obtain ⟨_, h⟩ := told _ hm
        cases h with | start has => exact ⟨_, has⟩
      · obtain ⟨_, h⟩ := told _ hm
        cases h with | empty has => exact ⟨_, has⟩
    · obtain ⟨_, h⟩ := told _ hm
      cases h with | text read => exact ⟨_, read⟩

end MapGate.Xml
