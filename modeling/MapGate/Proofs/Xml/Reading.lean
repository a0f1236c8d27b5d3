import MapGate.Proofs.Xml.Markup
import MapGate.Xml.Tree

/-!
# Reading a document piece by piece

Reading a document is to read one piece after the other, each with the tree so
far: `Builder.readFrom` goes on from any point, and `readFrom_of_readEvent` takes
one piece.
-/

namespace MapGate.Xml

/-- The names of the open elements after a piece, or nothing where it is an end
tag that has no start tag. -/
def Event.nextOpened : Event → List String → Option (List String)
  | start tag, opened => some (tag.name :: opened)
  | close name, innermost :: outer => if name = innermost then some outer else none
  | close _, [] => none
  | _, opened => some opened

theorem eventsFrom_cons {opened opened' : List String} {l rest : List Char} {event : Event}
    (h : readEvent l = .ok (some (event, rest))) (hn : event.nextOpened opened = some opened') :
    eventsFrom opened l =
      (event :: (eventsFrom opened' rest).1, (eventsFrom opened' rest).2) := by
  rw [eventsFrom]
  split
  · rename_i e; rw [h] at e; cases e
  · rename_i e; rw [h] at e; cases e
  · rename_i e
    rw [h] at e
    cases e
    cases event with
    | close name =>
      cases opened with
      | nil => cases hn
      | cons innermost outer =>
        rw [Event.nextOpened] at hn
        split at hn
        · rename_i e; cases hn; simp only [if_pos e]
        · cases hn
    | _ => cases hn; rfl

/-- There is no first piece where none can be read, and none that is an end tag without a
start tag. -/
theorem eventsFrom_eq_nil {opened : List String} {l : List Char}
    (h : ∀ event rest, readEvent l = .ok (some (event, rest)) → event.nextOpened opened = none) :
    (eventsFrom opened l).1 = [] := by
  rw [eventsFrom]
  split
  · rfl
  · rfl
  · rename_i event rest e
    have hn := h event rest e
    cases event with
    | close name =>
      cases opened with
      | nil => rfl
      | cons innermost outer =>
        rw [Event.nextOpened] at hn
        split at hn
        · cases hn
        · rename_i e; simp only [if_neg e]
    | _ => cases hn

/-- There are no pieces, or there is a first one, which fits the open elements, and those
behind it. -/
theorem eventsFrom_nested (opened : List String) (l : List Char) :
    (eventsFrom opened l).1 = [] ∨ ∃ event rest opened',
      readEvent l = .ok (some (event, rest)) ∧ event.nextOpened opened = some opened' ∧
      (eventsFrom opened l).1 = event :: (eventsFrom opened' rest).1 := by
  by_cases h : ∃ event rest opened', readEvent l = .ok (some (event, rest)) ∧
      event.nextOpened opened = some opened'
  · obtain ⟨event, rest, opened', hr, hn⟩ := h
    exact .inr ⟨event, rest, opened', hr, hn, by rw [eventsFrom_cons hr hn]⟩
  · refine .inl (eventsFrom_eq_nil fun event rest hr => ?_)
    cases hn : event.nextOpened opened with
    | none => rfl
    | some opened' => exact absurd ⟨event, rest, opened', hr, hn⟩ h

/-- There are no pieces, or there is a first one and those behind it. -/
theorem eventsFrom_cases (opened : List String) (l : List Char) :
    (eventsFrom opened l).1 = [] ∨ ∃ event rest opened',
      readEvent l = .ok (some (event, rest)) ∧
      (eventsFrom opened l).1 = event :: (eventsFrom opened' rest).1 := by
  obtain none | ⟨event, rest, opened', hr, -, more⟩ := eventsFrom_nested opened l
  · exact .inl none
  · exact .inr ⟨event, rest, opened', hr, more⟩

namespace Builder

/-- The names of the open elements. -/
def names (b : Builder) : List String := b.opened.map (·.name)

/-- The document that a text gives when it goes on from what was read before. -/
def readFrom (b : Builder) (l : List Char) : Except Fault Document :=
  (eventsFrom b.names l).1.foldlM step b >>= fun b' =>
    match (eventsFrom b.names l).2 with
    | some fault => .error fault
    | none => b'.finish

theorem names_place (b : Builder) (node : Node) : (b.place node).names = b.names := by
  rw [place, names]
  split <;> simp_all [names]

theorem names_attach {b b' : Builder} {e : Element} (h : b.attach e = .ok b') :
    b'.names = b.names := by
  rw [attach] at h
  split at h
  · cases h; exact names_place _ _
  · split at h
    · cases h; rfl
    · cases h

/-- The tree keeps the names of the open elements as the pieces do. -/
theorem names_step {b b' : Builder} {event : Event} {opened : List String}
    (h : b.step event = .ok b') (hn : event.nextOpened b.names = some opened) :
    b'.names = opened := by
  cases event with
  | start tag =>
    cases ha : tag.attributes with
    | error fault => rw [step, ha] at h; cases h
    | ok attributes => rw [step, ha] at h; cases h; cases hn; rfl
  | empty tag =>
    cases ha : tag.attributes with
    | error fault => rw [step, ha] at h; cases h
    | ok attributes => rw [step, ha] at h; cases hn; exact names_attach h
  | close name =>
    cases ho : b.opened with
    | nil => rw [step, ho] at h; cases h
    | cons innermost outer =>
      rw [step, ho] at h
      rw [names, ho, List.map_cons, Event.nextOpened] at hn
      split at hn
      · cases hn; exact names_attach h
      · cases hn
  | text written =>
    cases hn
    rw [step] at h
    split at h
    · cases h
    · split at h
      · cases h
      · cases h; exact names_place _ _
  | cdata content => cases hn; cases h; exact names_place _ _
  | comment content => cases hn; cases h; exact names_place _ _
  | declaration content => cases hn; cases h; rfl
  | doctype => cases h
  | instruction => cases hn; cases h; rfl

/-- One piece is taken, and reading goes on behind it. -/
theorem readFrom_of_readEvent {b : Builder} {l rest : List Char} {event : Event}
    {opened : List String} (h : readEvent l = .ok (some (event, rest)))
    (hn : event.nextOpened b.names = some opened) :
    b.readFrom l = b.step event >>= fun b' => b'.readFrom rest := by
  rw [readFrom, eventsFrom_cons h hn, List.foldlM_cons]
  cases hs : b.step event with
  | error fault => rfl
  | ok b' => rw [← names_step hs hn]; rfl

theorem ofChars_eq_readFrom {l : List Char} (h : ∀ tail, l ≠ '\uFEFF' :: tail) :
    Document.ofChars l = ({} : Builder).readFrom l := by
  have e : events l = eventsFrom [] l := by
    rw [events]
    exact h
  rw [Document.ofChars, e]
  rfl

end Builder

end MapGate.Xml
