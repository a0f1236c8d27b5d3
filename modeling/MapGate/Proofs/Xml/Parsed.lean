import MapGate.Proofs.Xml.Bytes
import MapGate.Proofs.Xml.ReadBack
import Mathlib.Data.List.Basic

/-!
# Documents that were read

What a document holds after it was read can be written and read again: each piece
holds only what it can hold (`Event.Reads`), and the tree under construction keeps
that (`Builder.Reads.step`), so a document that was read has it as well
(`Document.reads_of_ofBytes`).
-/

namespace MapGate.Xml

/-- What a document can hold to be written and read again, its tags apart. -/
structure Document.Reads (document : Document) : Prop where
  declaration : ∀ content, document.declaration? = some content → DeclarationReads content
  content : document.root.toNode.ContentReads

/-! ## Pieces -/

/-- A piece holds what a piece of its kind can hold. -/
def Event.Reads : Event → Prop
  | comment content => EndsAt "-->" content
  | cdata content => EndsAt "]]>" content
  | declaration content => DeclarationReads content
  | _ => True

theorem reads_readBang? {l rest : List Char} {event : Event}
    (h : readBang? l = .ok (event, rest)) : event.Reads := by
  unfold readBang? at h
  split at h
  · split at h
    · rename_i hs; cases h; exact endsAt_of_splitAtChars? hs
    · cases h
  · split at h
    · split at h
      · rename_i hs; cases h; exact endsAt_of_splitAtChars? hs
      · cases h
    · split at h
      · split at h
        · split at h
          · cases h
          · cases h; trivial
        · cases h
      · cases h

theorem reads_instruction? {content : List Char} {event : Event} (hc : '>' ∉ content)
    (h : instruction? content = some event) : event.Reads := by
  have read := h
  unfold instruction? at h
  split at h
  · cases h
  · rename_i last
    have whole : content.dropLast ++ ['?'] = content :=
      List.dropLast_append_getLast? '?' (not_not.1 (not_or.1 last).2)
    split at h
    · split at h
      · cases h
        refine ⟨?_, ?_⟩
        · rw [String.toList_ofList]
          exact fun hm => hc (List.dropLast_subset _ hm)
        · rw [String.toList_ofList, whole]
          exact read
      · cases h; trivial
    · cases h; trivial

theorem reads_readMarkup {l rest : List Char} {event : Event}
    (h : readMarkup l = .ok (event, rest)) : event.Reads := by
  unfold readMarkup at h
  split at h
  · exact reads_readBang? h
  · cases h; trivial
  · split at h
    · rename_i e
      cases h
      refine reads_instruction? (fun hm => ?_) e
      simpa using List.all_eq_true.1 (List.all_takeWhile) _ hm
    · cases h
  · split at h
    · cases h
      unfold tagEvent
      dsimp only
      split <;> trivial
    · cases h

theorem reads_readEvent {l rest : List Char} {event : Event}
    (h : readEvent l = .ok (some (event, rest))) : event.Reads := by
  cases l with
  | nil => cases h
  | cons c l =>
    rw [readEvent] at h
    split at h
    · cases h; trivial
    · split at h
      · cases h
      · cases hm : readMarkup l with
        | error fault => rw [hm] at h; cases h
        | ok read => rw [hm] at h; cases h; exact reads_readMarkup hm

/-- All pieces of a document hold what they can hold. -/
theorem reads_eventsFrom {opened : List String} {l : List Char} :
    ∀ event ∈ (eventsFrom opened l).1, event.Reads := by
  induction h : l.length using Nat.strongRecOn generalizing opened l with
  | ind n ih =>
    intro event he
    obtain none | ⟨first, rest, opened', hr, more⟩ := eventsFrom_cases opened l
    · rw [none] at he; cases he
    · rw [more] at he
      rcases List.mem_cons.1 he with rfl | he
      · exact reads_readEvent hr
      · exact ih rest.length (h ▸ length_readEvent hr) rfl event he

namespace Builder

/-- What a tree under construction holds can be read back. -/
structure Reads (b : Builder) : Prop where
  declaration : ∀ content, b.declaration? = some content → DeclarationReads content
  opened : ∀ e ∈ b.opened, e.close.toNode.ContentReads
  root : ∀ e, b.root? = some e → e.toNode.ContentReads

theorem Reads.place {b : Builder} {node : Node} (hb : b.Reads) (hn : node.ContentReads) :
    (b.place node).Reads := by
  rw [Builder.place]
  split
  · rename_i innermost outer ho
    have h := List.forall_mem_cons.1 (ho ▸ hb.opened)
    refine ⟨hb.declaration, List.forall_mem_cons.2 ⟨?_, h.2⟩, hb.root⟩
    have hi := Element.every_toNode.1 h.1
    refine Element.every_toNode.2 ⟨hi.1, fun child hc => ?_⟩
    simp only [OpenElement.close, List.reverse_cons, List.mem_append, List.mem_singleton] at hc
    rcases hc with hc | rfl
    · exact hi.2 child hc
    · exact hn
  · exact hb

theorem Reads.attach {b b' : Builder} {e : Element} (hb : b.Reads) (he : e.toNode.ContentReads)
    (h : b.attach e = .ok b') : b'.Reads := by
  rw [Builder.attach] at h
  split at h
  · cases h; exact hb.place he
  · split at h
    · cases h
      exact ⟨hb.declaration, hb.opened, fun e' h => Option.some.inj h ▸ he⟩
    · cases h

/-- A tag has attributes that a tag can list. -/
theorem contentReads_of_attributes {tag : Tag} {attributes : List (String × String)}
    (h : tag.attributes = .ok attributes) :
    Node.ContentReads (.element tag.name attributes []) := by
  exact Node.every_element.2 ⟨(wellFormed_of_attributesFrom h).1, List.forall_mem_nil _⟩

theorem Reads.step {b b' : Builder} {event : Event} (hb : b.Reads) (he : event.Reads)
    (h : b.step event = .ok b') : b'.Reads := by
  cases event with
  | start tag =>
    cases ha : tag.attributes with
    | error fault => rw [Builder.step, ha] at h; cases h
    | ok attributes =>
      rw [Builder.step, ha] at h
      cases h
      exact ⟨hb.declaration, List.forall_mem_cons.2 ⟨contentReads_of_attributes ha, hb.opened⟩,
        hb.root⟩
  | empty tag =>
    cases ha : tag.attributes with
    | error fault => rw [Builder.step, ha] at h; cases h
    | ok attributes =>
      rw [Builder.step, ha] at h
      have he : (Element.mk tag.name attributes []).toNode.ContentReads := contentReads_of_attributes ha
      exact hb.attach he h
  | close name =>
    rw [Builder.step] at h
    split at h
    · rename_i innermost outer ho
      have hi := List.forall_mem_cons.1 (ho ▸ hb.opened)
      have closed : ({ b with opened := outer } : Builder).Reads := ⟨hb.declaration, hi.2, hb.root⟩
      exact closed.attach hi.1 h
    · cases h
  | text written =>
    rw [Builder.step] at h
    split at h
    · cases h
    · split at h
      · cases h
      · cases h; exact hb.place (Node.every_of_element?_eq_none rfl trivial)
  | cdata content => cases h; exact hb.place (Node.every_of_element?_eq_none rfl he)
  | comment content => cases h; exact hb.place (Node.every_of_element?_eq_none rfl he)
  | declaration content =>
    cases h
    exact ⟨fun c hc => Option.some.inj hc ▸ he, hb.opened, hb.root⟩
  | doctype => cases h
  | instruction => cases h; exact hb

theorem Reads.foldlM {events : List Event} {b b' : Builder} (hb : b.Reads)
    (he : ∀ event ∈ events, event.Reads) (h : events.foldlM Builder.step b = .ok b') :
    b'.Reads := by
  induction events generalizing b with
  | nil => cases h; exact hb
  | cons event events ih =>
    rw [List.foldlM_cons] at h
    cases hs : b.step event with
    | error fault => rw [hs] at h; cases h
    | ok b₁ =>
      rw [hs] at h
      exact ih (hb.step (he _ List.mem_cons_self) hs)
        (fun e hm => he e (List.mem_cons_of_mem _ hm)) h

end Builder

/-- A document that was read holds what can be read again. -/
theorem Document.reads_of_ofBytes {bytes : ByteArray} {document : Document}
    (h : ofBytes bytes = .ok document) : document.Reads := by
  rw [ofBytes] at h
  split at h
  · rename_i text _
    rw [ofChars, ofEvents] at h
    cases hs : (events text.toList).1.foldlM Builder.step {} with
    | error fault => rw [hs] at h; cases h
    | ok b =>
      rw [hs] at h
      have start : ({} : Builder).Reads :=
        ⟨fun _ e => absurd e.symm (Option.some_ne_none _), List.forall_mem_nil _,
          fun _ e => absurd e.symm (Option.some_ne_none _)⟩
      have reads := start.foldlM reads_eventsFrom hs
      cases hf : (events text.toList).2 with
      | some fault => rw [hf] at h; cases h
      | none =>
        rw [hf] at h
        change b.finish = .ok document at h
        rw [Builder.finish] at h
        split at h
        · cases h
        · split at h
          · rename_i hr; cases h; exact ⟨reads.declaration, reads.root _ hr⟩
          · cases h
  · cases h

end MapGate.Xml
