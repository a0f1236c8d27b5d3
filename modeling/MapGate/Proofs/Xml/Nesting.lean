import MapGate.Proofs.Xml.Reading

/-!
# Nested tags

The pieces of a document are nested when each start tag has its end tag behind it, with such
pieces in between (`Balanced`, `IsElement`). A document has one root when its pieces are those
of one element, with no tags in front of them or behind (`OneRoot`), and then these are the
only ones that are (`OneRoot.unique`).

What was read up to some point is known by the elements that are open there and by whether
there is a root (`Nested`). Each piece that the reader lets through keeps that
(`Nested.other`, `Nested.start`, `Nested.append`, `Nested.root`, `Nested.close`), and when no
element is open and there is a root, the pieces have one root.
-/

namespace MapGate.Xml

/-- Whether a piece is a tag, so that an element starts or ends there. -/
def Event.bounds : Event → Bool
  | start _ | empty _ | close _ => true
  | _ => false

/-- Pieces in which each start tag has its end tag. -/
inductive Balanced : List Event → Prop
  | nil : Balanced []
  | other {event events} : event.bounds = false → Balanced events → Balanced (event :: events)
  | empty {tag events} : Balanced events → Balanced (.empty tag :: events)
  | element {tag content events} : Balanced content → Balanced events →
      Balanced (.start tag :: (content ++ .close tag.name :: events))

/-- The pieces of one element. -/
inductive IsElement : List Event → Prop
  | empty {tag} : IsElement [.empty tag]
  | tags {tag content} : Balanced content →
      IsElement (.start tag :: (content ++ [.close tag.name]))

/-- The pieces of a document fall into those of one element and others, in front of it and
behind, of which none is a tag. -/
structure OneRoot (events before inside after : List Event) : Prop where
  split : events = before ++ inside ++ after
  element : IsElement inside
  outside : ∀ event ∈ before ++ after, event.bounds = false

/-- Pieces that leave elements of some names open, the innermost first. -/
inductive Unclosed : List String → List Event → Prop
  | nil : Unclosed [] []
  | cons {tag names events content} : Unclosed names events → Balanced content →
      Unclosed (tag.name :: names) (events ++ .start tag :: content)

/-- What the pieces up to some point are, by the names of the open elements, the innermost
first, and by whether the document has a root already. An element that is opened behind the
root makes a second one, whatever follows. -/
inductive Nested : (names : List String) → (hasRoot : Bool) → List Event → Prop
  | before {before} : (∀ event ∈ before, event.bounds = false) → Nested [] false before
  | within {name names before events} : (∀ event ∈ before, event.bounds = false) →
      Unclosed (name :: names) events → Nested (name :: names) false (before ++ events)
  | after {events before inside after} : OneRoot events before inside after → Nested [] true events
  | again {name names events} : Nested (name :: names) true events

variable {events inside before after more : List Event} {event : Event} {tag : Tag}
  {name : String} {names : List String} {hasRoot : Bool}

/-! ## Balanced pieces -/

theorem Balanced.append (h : Balanced events) (h' : Balanced more) : Balanced (events ++ more) := by
  induction h with
  | nil => exact h'
  | other he _ ih => exact .other he ih
  | empty _ ih => exact .empty ih
  | element hc _ _ ih =>
    rw [List.cons_append, List.append_assoc]
    exact .element hc ih

theorem Balanced.single (h : event.bounds = false) : Balanced [event] := .other h .nil

theorem IsElement.balanced (h : IsElement inside) : Balanced inside := by
  cases h with
  | empty => exact .empty .nil
  | tags hc => exact .element hc .nil

/-! ## The pieces of the root -/

theorem IsElement.exists_first (h : IsElement inside) :
    ∃ first tail, inside = first :: tail ∧ first.bounds = true := by
  cases h with
  | empty => exact ⟨_, _, rfl, rfl⟩
  | tags => exact ⟨_, _, rfl, rfl⟩

theorem IsElement.exists_last (h : IsElement inside) :
    ∃ front last, inside = front ++ [last] ∧ last.bounds = true := by
  cases h with
  | @empty tag => exact ⟨[], .empty tag, rfl, rfl⟩
  | @tags tag content => exact ⟨.start tag :: content, .close tag.name, rfl, rfl⟩

/-- The pieces of the root are those from the first tag to the last. -/
theorem OneRoot.inside_eq (h : OneRoot events before inside after) :
    inside = ((events.dropWhile (!·.bounds)).reverse.dropWhile (!·.bounds)).reverse := by
  obtain ⟨first, tail, e, bounds⟩ := h.element.exists_first
  obtain ⟨front, last, e', bounds'⟩ := h.element.exists_last
  have passed : ∀ event ∈ before, (!event.bounds) = true := fun event he => by
    rw [h.outside event (List.mem_append_left _ he)]
    rfl
  have passed' : ∀ event ∈ after.reverse, (!event.bounds) = true := fun event he => by
    rw [h.outside event (List.mem_append_right _ (List.mem_reverse.1 he))]
    rfl
  have start : (inside ++ after).dropWhile (!·.bounds) = inside ++ after := by
    rw [e, List.cons_append, List.dropWhile_cons_of_neg (by simp [bounds])]
  have stop : inside.reverse.dropWhile (!·.bounds) = inside.reverse := by
    rw [e', List.reverse_append, List.reverse_singleton, List.singleton_append,
      List.dropWhile_cons_of_neg (by simp [bounds'])]
  rw [h.split, List.append_assoc, List.dropWhile_append_of_pos passed, start, List.reverse_append,
    List.dropWhile_append_of_pos passed', stop, List.reverse_reverse]

/-- No other pieces are the root of the same document. -/
theorem OneRoot.unique {before' inside' after' : List Event}
    (h : OneRoot events before inside after) (h' : OneRoot events before' inside' after') :
    inside = inside' := by
  rw [h.inside_eq, ← h'.inside_eq]

/-! ## Open elements -/

theorem Unclosed.append (h : Unclosed (name :: names) events) (h' : Balanced more) :
    Unclosed (name :: names) (events ++ more) := by
  cases h with
  | cons outer hc =>
    rw [List.append_assoc, List.cons_append]
    exact .cons outer (hc.append h')

theorem Unclosed.start (h : Unclosed names events) :
    Unclosed (tag.name :: names) (events ++ [.start tag]) :=
  .cons h .nil

/-- An end tag of the innermost element completes an element behind what leaves the others
open. -/
theorem Unclosed.close (h : Unclosed (name :: names) events) :
    ∃ outer inside, events ++ [.close name] = outer ++ inside ∧ Unclosed names outer ∧
      IsElement inside := by
  cases h with
  | cons outer hc => exact ⟨_, _, by rw [List.append_assoc]; rfl, outer, .tags hc⟩

/-! ## What was read so far -/

theorem OneRoot.concat (h : OneRoot events before inside after) (he : event.bounds = false) :
    OneRoot (events ++ [event]) before inside (after ++ [event]) where
  split := by rw [h.split, List.append_assoc]
  element := h.element
  outside := by
    intro e hm
    rw [← List.append_assoc, List.mem_append, List.mem_singleton] at hm
    rcases hm with hm | rfl
    · exact h.outside e hm
    · exact he

/-- A piece that is no tag changes neither the open elements nor the root. -/
theorem Nested.other (h : Nested names hasRoot events) (he : event.bounds = false) :
    Nested names hasRoot (events ++ [event]) := by
  cases h with
  | before hb =>
    refine .before fun e hm => ?_
    rcases List.mem_append.1 hm with hm | hm
    · exact hb e hm
    · rw [List.mem_singleton.1 hm]; exact he
  | within hb hu =>
    rw [List.append_assoc]
    exact .within hb (hu.append (.single he))
  | after hr => exact .after (hr.concat he)
  | again => exact .again

theorem Nested.start (h : Nested names hasRoot events) :
    Nested (tag.name :: names) hasRoot (events ++ [.start tag]) := by
  cases h with
  | before hb => exact .within hb (.start .nil)
  | within hb hu =>
    rw [List.append_assoc]
    exact .within hb hu.start
  | after => exact .again
  | again => exact .again

/-- An element within another leaves the open elements as they are. -/
theorem Nested.append (h : Nested (name :: names) hasRoot events) (he : Balanced more) :
    Nested (name :: names) hasRoot (events ++ more) := by
  cases h with
  | within hb hu =>
    rw [List.append_assoc]
    exact .within hb (hu.append he)
  | again => exact .again

/-- The first element that is in no other is the root. -/
theorem Nested.root (h : Nested [] false events) (hi : IsElement inside) :
    Nested [] true (events ++ inside) := by
  cases h with
  | before hb => exact .after ⟨by rw [List.append_nil], hi, by rwa [List.append_nil]⟩

/-- An end tag closes the innermost element, which is the root if no other is open and there
was none. -/
theorem Nested.close (h : Nested (name :: names) hasRoot events)
    (hr : names = [] → hasRoot = false) :
    Nested names (hasRoot || names.isEmpty) (events ++ [.close name]) := by
  cases h with
  | within hb hu =>
    obtain ⟨outer, inside, e, ho, hi⟩ := hu.close
    rw [List.append_assoc, e, Bool.false_or]
    cases names with
    | nil =>
      cases ho
      exact .after ⟨by rw [List.append_nil]; rfl, hi, by rwa [List.append_nil]⟩
    | cons name names => exact .within hb (ho.append hi.balanced)
  | again =>
    cases names with
    | nil => cases hr rfl
    | cons name names => exact .again

end MapGate.Xml
