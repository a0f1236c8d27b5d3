import MapGate.Proofs.Xml.Bytes
import MapGate.Proofs.Xml.Marks
import MapGate.Proofs.Xml.Nesting
import MapGate.Proofs.Xml.ReadBack

/-!
# The tree of a document

Bytes are read as a document exactly if they are a text whose pieces end without a fault, can
be read, and have one root with only blank text around it; and the root then says what its
pieces say, in their order (`Document.ofBytes_exact`).

Each piece that is taken keeps what is known of the pieces so far (`nested_step`), so where a
document was read its pieces have one root (`nested_foldlM`). The other way round, balanced
pieces within an element add to it what they say (`foldlM_balanced`), and those of an element
where none is open make it the root (`foldlM_element`).
-/

namespace MapGate.Xml

/-- A piece outside the root: it is no tag, and if it is a text, it is blank. -/
structure Event.IsOutside (event : Event) : Prop where
  bounds : event.bounds = false
  blank : ∀ written content, event = .text written → unescape? written = some content →
    content.all Text.isBlank = true

namespace Builder

variable {b b' : Builder} {event : Event} {events : List Event}

/-! ## What a piece does -/

/-- An element is put into the innermost open element, or is the root. -/
theorem attach_eq_ok {e : Element} (h : b.attach e = .ok b') :
    b.opened ≠ [] ∧ b' = b.place e.toNode ∨
      b.opened = [] ∧ b.root? = none ∧ b' = { b with root? := some e } := by
  rw [attach] at h
  split at h
  · rename_i filled
    cases h
    exact .inl ⟨by simpa using filled, rfl⟩
  · rename_i nil
    split at h
    · rename_i none
      cases h
      exact .inr ⟨by simpa using nil, none, rfl⟩
    · cases h

theorem root?_place (b : Builder) (node : Node) : (b.place node).root? = b.root? := by
  rw [place]
  split <;> rfl

theorem place_of_opened_eq_nil (h : b.opened = []) (node : Node) : b.place node = b := by
  rw [place, h]

/-- Only a piece that says something is taken. -/
theorem exists_says_of_step (h : b.step event = .ok b') : ∃ marks, event.Says marks := by
  cases event with
  | start tag =>
    cases ha : tag.attributes with
    | error fault => rw [step, ha] at h; cases h
    | ok attributes => exact ⟨_, .start (attributes_eq_ok_iff.1 ha)⟩
  | empty tag =>
    cases ha : tag.attributes with
    | error fault => rw [step, ha] at h; cases h
    | ok attributes => exact ⟨_, .empty (attributes_eq_ok_iff.1 ha)⟩
  | text written =>
    cases hu : unescape? written with
    | none => rw [step, hu] at h; cases h
    | some content => exact ⟨_, .text hu⟩
  | doctype => cases h
  | close name => exact ⟨_, .close⟩
  | cdata content => exact ⟨_, .cdata⟩
  | comment content => exact ⟨_, .comment⟩
  | declaration content => exact ⟨_, .declaration⟩
  | instruction => exact ⟨_, .instruction⟩

/-- A piece that is no tag leaves the root as it is. -/
theorem root?_step (he : event.bounds = false) (h : b.step event = .ok b') : b'.root? = b.root? := by
  cases event with
  | text written =>
    rw [step] at h
    split at h
    · cases h
    · split at h
      · cases h
      · cases h; exact root?_place _ _
  | cdata content => cases h; exact root?_place _ _
  | comment content => cases h; exact root?_place _ _
  | declaration content => cases h; rfl
  | instruction => cases h; rfl
  | doctype => cases h
  | start tag => cases he
  | empty tag => cases he
  | close name => cases he

/-! ## Pieces that were taken -/

/-- A piece that is taken keeps what is known of the pieces so far. -/
theorem nested_step {opened : List String} (hn : Nested b.names b.root?.isSome events)
    (hs : b.step event = .ok b') (ho : event.nextOpened b.names = some opened) :
    Nested b'.names b'.root?.isSome (events ++ [event]) := by
  have names := names_step hs ho
  cases he : event.bounds with
  | false =>
    have same : event.nextOpened b.names = some b.names := by
      cases event <;> first | rfl | cases he
    rw [root?_step he hs, names, ← Option.some.inj (same.symm.trans ho)]
    exact hn.other he
  | true =>
    cases event with
    | start tag =>
      cases ha : tag.attributes with
      | error fault => rw [step, ha] at hs; cases hs
      | ok attributes =>
        rw [step, ha] at hs
        cases hs
        exact hn.start
    | empty tag =>
      cases ha : tag.attributes with
      | error fault => rw [step, ha] at hs; cases hs
      | ok attributes =>
        rw [step, ha] at hs
        cases ho
        obtain ⟨ne, rfl⟩ | ⟨nil, none, rfl⟩ := attach_eq_ok hs
        · rw [root?_place, names]
          obtain ⟨name, others, e⟩ := List.exists_cons_of_ne_nil (mt List.map_eq_nil_iff.1 ne)
          rw [show b.names = name :: others from e] at hn ⊢
          exact hn.append (.empty .nil)
        · rw [names]
          have start : Nested [] false events := by
            rwa [Builder.names, nil, none] at hn
          rw [Builder.names, nil]
          exact start.root .empty
    | close name =>
      cases hb : b.opened with
      | nil => rw [step, hb] at hs; cases hs
      | cons innermost outer =>
        rw [step, hb] at hs
        rw [Builder.names, hb, List.map_cons, Event.nextOpened] at ho
        split at ho
        · rename_i same
          rw [Builder.names, hb, List.map_cons, ← same] at hn
          cases ho
          rw [names]
          obtain ⟨ne, rfl⟩ | ⟨nil, none, rfl⟩ := attach_eq_ok hs
          · have closed := hn.close fun nil => absurd (List.map_eq_nil_iff.1 nil) ne
            have open' : (outer.map (·.name)).isEmpty = false := by simpa using ne
            rw [open', Bool.or_false] at closed
            rw [root?_place]
            exact closed
          · obtain rfl : outer = [] := nil
            have none : b.root? = .none := none
            rw [none] at hn
            exact hn.close fun _ => rfl
        · cases ho
    | _ => cases he

/-- Pieces that were taken one after the other, each of which fits the elements that are open
before it. -/
theorem nested_foldlM {l : List Char} (hn : Nested b.names b.root?.isSome events)
    (h : (eventsFrom b.names l).1.foldlM step b = .ok b') :
    Nested b'.names b'.root?.isSome (events ++ (eventsFrom b.names l).1) := by
  induction hl : l.length using Nat.strongRecOn generalizing b events l with
  | ind n ih =>
    obtain none | ⟨event, rest, opened, hr, ho, more⟩ := eventsFrom_nested b.names l
    · rw [none] at h ⊢
      cases h
      rwa [List.append_nil]
    · rw [more, List.foldlM_cons] at h
      cases hs : b.step event with
      | error fault => rw [hs] at h; cases h
      | ok b₁ =>
        rw [hs] at h
        have names := names_step hs ho
        rw [← names] at h more
        have rest := ih rest.length (hl ▸ length_readEvent hr) (nested_step hn hs ho) h rfl
        rwa [more, ← List.singleton_append, ← List.append_assoc]

theorem exists_says_of_foldlM (h : events.foldlM step b = .ok b') :
    ∀ event ∈ events, ∃ marks, event.Says marks := by
  induction events generalizing b with
  | nil => exact List.forall_mem_nil _
  | cons event events ih =>
    rw [List.foldlM_cons] at h
    cases hs : b.step event with
    | error fault => rw [hs] at h; cases h
    | ok b₁ =>
      rw [hs] at h
      exact List.forall_mem_cons.2 ⟨exists_says_of_step hs, ih h⟩

/-! ## Pieces outside the root -/

/-- Where no element is open, a piece that is no tag is taken exactly if it may stand outside
the root, and it is dropped. -/
theorem step_outside (ho : b.opened = []) (he : event.bounds = false)
    (told : ∃ marks, event.Says marks) :
    (event.IsOutside → ∃ d, b.step event = .ok { b with declaration? := d }) ∧
      ∀ b', b.step event = .ok b' → event.IsOutside ∧ ∃ d, b' = { b with declaration? := d } := by
  obtain ⟨marks, told⟩ := told
  have plain : (∀ written, event ≠ .text written) → event.IsOutside := fun ne =>
    ⟨he, fun written _ e => absurd e (ne written)⟩
  cases told with
  | start | empty | close => cases he
  | @text written content hu =>
    have taken : b.step (.text written) =
        if !content.all Text.isBlank then .error .textOutsideRoot else .ok b := by
      rw [step, hu]
      simp only [ho, List.isEmpty_nil, Bool.true_and, place_of_opened_eq_nil ho]
    rw [taken]
    constructor
    · intro outside
      rw [outside.blank written content rfl hu]
      exact ⟨b.declaration?, rfl⟩
    · intro b' h
      cases blank : content.all Text.isBlank with
      | false => rw [blank] at h; cases h
      | true =>
        rw [blank] at h
        cases h
        refine ⟨⟨rfl, fun written' content' e hu' => ?_⟩, b.declaration?, rfl⟩
        cases e
        rw [← Option.some.inj (hu.symm.trans hu'), blank]
  | cdata | comment =>
    refine ⟨fun _ => ⟨b.declaration?, congrArg _ (place_of_opened_eq_nil ho _)⟩, fun b' h => ?_⟩
    cases h
    exact ⟨plain fun _ => Event.noConfusion, b.declaration?, place_of_opened_eq_nil ho _⟩
  | @declaration content =>
    refine ⟨fun _ => ⟨some content, rfl⟩, fun b' h => ?_⟩
    cases h
    exact ⟨plain fun _ => Event.noConfusion, some content, rfl⟩
  | instruction =>
    refine ⟨fun _ => ⟨b.declaration?, rfl⟩, fun b' h => ?_⟩
    cases h
    exact ⟨plain fun _ => Event.noConfusion, b.declaration?, rfl⟩

/-- Pieces that are no tags are taken where no element is open exactly if they may stand
outside the root. -/
theorem foldlM_outside (ho : b.opened = []) (he : ∀ event ∈ events, event.bounds = false)
    (told : ∀ event ∈ events, ∃ marks, event.Says marks) :
    ((∀ event ∈ events, event.IsOutside) →
        ∃ d, events.foldlM step b = .ok { b with declaration? := d }) ∧
      ∀ b', events.foldlM step b = .ok b' →
        (∀ event ∈ events, event.IsOutside) ∧ ∃ d, b' = { b with declaration? := d } := by
  induction events generalizing b with
  | nil =>
    refine ⟨fun _ => ⟨b.declaration?, rfl⟩, fun b' h => ?_⟩
    cases h
    exact ⟨List.forall_mem_nil _, b.declaration?, rfl⟩
  | cons event events ih =>
    obtain ⟨he, hes⟩ := List.forall_mem_cons.1 he
    obtain ⟨told, tolds⟩ := List.forall_mem_cons.1 told
    obtain ⟨takes, taken⟩ := step_outside ho he told
    constructor
    · intro outside
      obtain ⟨outside, outsides⟩ := List.forall_mem_cons.1 outside
      obtain ⟨d, hs⟩ := takes outside
      obtain ⟨d', h⟩ := (@ih { b with declaration? := d } ho hes tolds).1 outsides
      exact ⟨d', by rw [List.foldlM_cons, hs]; exact h⟩
    · intro b' h
      rw [List.foldlM_cons] at h
      cases hs : b.step event with
      | error fault => rw [hs] at h; cases h
      | ok b₁ =>
        rw [hs] at h
        obtain ⟨outside, d, rfl⟩ := taken b₁ hs
        obtain ⟨outsides, d', e⟩ := (@ih { b with declaration? := d } ho hes tolds).2 b' h
        exact ⟨List.forall_mem_cons.2 ⟨outside, outsides⟩, d', e⟩

/-! ## Pieces of an element -/

/-- A piece within an element that is no tag adds to it what it says. -/
theorem step_within (he : event.bounds = false) (told : ∃ marks, event.Says marks) (b : Builder)
    (e : OpenElement) (nodes : List Node) : ∃ nodes' d,
      (b.within e nodes).step event = .ok ({ b with declaration? := d }.within e (nodes ++ nodes')) ∧
        event.Says (Node.allMarks nodes') := by
  obtain ⟨marks, told⟩ := told
  have placed : ∀ node, (b.within e nodes).place node = b.within e (nodes ++ [node]) := fun node => by
    simp [within, place]
  cases told with
  | start | empty | close => cases he
  | @text written content hu =>
    refine ⟨[.text (String.ofList content)], b.declaration?, ?_, .text hu⟩
    rw [step, hu, ← placed]
    simp [within]
  | @cdata content => exact ⟨[.cdata content], b.declaration?, congrArg _ (placed _), .cdata⟩
  | @comment content => exact ⟨[.comment content], b.declaration?, congrArg _ (placed _), .comment⟩
  | @declaration content =>
    exact ⟨[], some content, by rw [List.append_nil]; rfl, .declaration⟩
  | instruction => exact ⟨[], b.declaration?, by rw [List.append_nil]; rfl, .instruction⟩

/-- A start tag opens an element. -/
theorem step_start {tag : Tag} {attributes : List (String × String)}
    (has : tag.Has attributes) (b : Builder) :
    b.step (.start tag) = .ok (b.within ⟨tag.name, attributes, []⟩ []) := by
  rw [step, attributes_eq_ok_iff.2 has]
  rfl

/-- An end tag puts the element that is open where it belongs. -/
theorem step_close_within (b : Builder) (e : OpenElement) (nodes : List Node) (name : String) :
    (b.within e nodes).step (.close name) =
      b.attach ⟨e.name, e.attributes, e.content.reverse ++ nodes⟩ := by
  simp [within, step, OpenElement.close]

/-- Balanced pieces within an element add to it what they say. -/
theorem foldlM_balanced (h : Balanced events) (told : ∀ event ∈ events, ∃ marks, event.Says marks)
    (b : Builder) (e : OpenElement) (nodes : List Node) : ∃ nodes' d,
      events.foldlM step (b.within e nodes) =
          .ok ({ b with declaration? := d }.within e (nodes ++ nodes')) ∧
        Says events (Node.allMarks nodes') := by
  induction h generalizing b e nodes with
  | nil => exact ⟨[], b.declaration?, by rw [List.append_nil]; rfl, .nil⟩
  | @other event events he _ ih =>
    obtain ⟨told, tolds⟩ := List.forall_mem_cons.1 told
    obtain ⟨nodes₁, d₁, hs, first⟩ := step_within he told b e nodes
    obtain ⟨nodes₂, d₂, h, rest⟩ := ih tolds { b with declaration? := d₁ } e (nodes ++ nodes₁)
    refine ⟨nodes₁ ++ nodes₂, d₂, ?_, ?_⟩
    · rw [List.foldlM_cons, hs, ← List.append_assoc]
      exact h
    · rw [Node.allMarks_append]
      exact .cons first rest
  | @empty tag events _ ih =>
    obtain ⟨⟨_, told⟩, tolds⟩ := List.forall_mem_cons.1 told
    cases told with
    | @empty _ attributes has =>
      let node := Node.element tag.name attributes []
      obtain ⟨nodes₂, d₂, h, rest⟩ := ih tolds b e (nodes ++ [node])
      refine ⟨node :: nodes₂, d₂, ?_, .cons (.empty has) rest⟩
      rw [List.foldlM_cons, step, attributes_eq_ok_iff.2 has, List.append_cons]
      have attached := attach_within b e nodes ⟨tag.name, attributes, []⟩
      exact (congrArg (· >>= fun b' => events.foldlM step b') attached).trans h
  | @element tag content events _ _ ihc ih =>
    obtain ⟨⟨_, told⟩, tolds⟩ := List.forall_mem_cons.1 told
    cases told with
    | @start _ attributes has =>
      -- The content goes into the element that the start tag opens, and this one into `e`.
      let opened : OpenElement := ⟨tag.name, attributes, []⟩
      have inside := fun event hm => tolds event (List.mem_append_left _ hm)
      have behind := fun event hm => tolds event (List.mem_append_right _ (List.mem_cons_of_mem _ hm))
      obtain ⟨nodes₁, d₁, h₁, told₁⟩ := ihc inside (b.within e nodes) opened []
      let node := Node.element tag.name attributes nodes₁
      obtain ⟨nodes₂, d₂, h₂, told₂⟩ := ih behind { b with declaration? := d₁ } e (nodes ++ [node])
      refine ⟨node :: nodes₂, d₂, ?_, ?_⟩
      · have attached := attach_within { b with declaration? := d₁ } e nodes ⟨tag.name, attributes, nodes₁⟩
        have close := (step_close_within ({ b with declaration? := d₁ }.within e nodes) opened nodes₁
          tag.name).trans attached
        rw [List.foldlM_cons, step_start has]
        refine (List.foldlM_append.trans (congrArg (· >>= _) h₁)).trans ?_
        rw [List.append_cons]
        exact (congrArg (· >>= fun b' => events.foldlM step b') close).trans h₂
      · have marks : Node.allMarks (node :: nodes₂) = [.start tag.name attributes] ++
            (Node.allMarks nodes₁ ++ ([.stop tag.name] ++ Node.allMarks nodes₂)) := by
          simp [node, Node.allMarks, Node.marks]
        rw [marks]
        exact .cons (.start has) (told₁.append (.cons .close told₂))

/-- The pieces of an element make it the root, where no element is open and there is no root
yet. -/
theorem foldlM_element (h : IsElement events) (told : ∀ event ∈ events, ∃ marks, event.Says marks)
    (ho : b.opened = []) (hr : b.root? = none) : ∃ root d,
      events.foldlM step b = .ok { b with declaration? := d, root? := some root } ∧
        Says events root.toNode.marks := by
  have attached : ∀ d e, ({ b with declaration? := d } : Builder).attach e =
      .ok { b with declaration? := d, root? := some e } := fun d e => by
    simp [attach, ho, hr]
  cases h with
  | @empty tag =>
    obtain ⟨⟨_, told⟩, -⟩ := List.forall_mem_cons.1 told
    cases told with
    | @empty _ attributes has =>
      refine ⟨⟨tag.name, attributes, []⟩, b.declaration?, ?_, .single (.empty has)⟩
      rw [List.foldlM_cons, step, attributes_eq_ok_iff.2 has]
      exact congrArg (· >>= fun b' => [].foldlM step b') (attached b.declaration? _)
  | @tags tag content hc =>
    obtain ⟨⟨_, told⟩, tolds⟩ := List.forall_mem_cons.1 told
    cases told with
    | @start _ attributes has =>
      let opened : OpenElement := ⟨tag.name, attributes, []⟩
      have inside := fun event hm => tolds event (List.mem_append_left _ hm)
      obtain ⟨nodes, d, h, told⟩ := foldlM_balanced hc inside b opened []
      refine ⟨⟨tag.name, attributes, nodes⟩, d, ?_, .cons (.start has) (told.append (.single .close))⟩
      have close := (step_close_within { b with declaration? := d } opened nodes tag.name).trans
        (attached d _)
      rw [List.foldlM_cons, step_start has]
      refine (List.foldlM_append.trans (congrArg (· >>= _) h)).trans ?_
      exact congrArg (· >>= fun b' => [].foldlM step b') close

/-! ## Pieces with one root -/

/-- Pieces with one root are taken exactly if those outside of it may stand there, and then
the root says what its pieces say. -/
theorem foldlM_oneRoot {before inside after : List Event} (hr : OneRoot events before inside after)
    (told : ∀ event ∈ events, ∃ marks, event.Says marks) :
    ((∀ event ∈ before ++ after, event.IsOutside) →
        ∃ root d, events.foldlM step {} = .ok { declaration? := d, root? := some root }) ∧
      ∀ b', events.foldlM step {} = .ok b' → (∀ event ∈ before ++ after, event.IsOutside) ∧
        ∃ root d, b' = { declaration? := d, root? := some root } ∧ Says inside root.toNode.marks := by
  obtain ⟨rfl, element, plain⟩ := hr
  rw [List.append_assoc] at told ⊢
  obtain ⟨told, tolds⟩ := List.forall_mem_append.1 told
  obtain ⟨toldIn, toldAfter⟩ := List.forall_mem_append.1 tolds
  obtain ⟨plain, plain'⟩ := List.forall_mem_append.1 plain
  obtain ⟨takes, taken⟩ := foldlM_outside (b := {}) rfl plain told
  constructor
  · intro outside
    obtain ⟨outside, outside'⟩ := List.forall_mem_append.1 outside
    obtain ⟨d₁, h₁⟩ := takes outside
    obtain ⟨root, d₂, h₂, -⟩ := foldlM_element (b := { declaration? := d₁ }) element toldIn rfl rfl
    obtain ⟨d₃, h₃⟩ := (foldlM_outside (b := { declaration? := d₂, root? := some root }) rfl plain'
      toldAfter).1 outside'
    refine ⟨root, d₃, ?_⟩
    rw [List.foldlM_append, h₁]
    refine List.foldlM_append.trans ?_
    rw [h₂]
    exact h₃
  · intro b' h
    rw [List.foldlM_append] at h
    cases h₁ : before.foldlM step {} with
    | error fault => rw [h₁] at h; cases h
    | ok b₁ =>
      rw [h₁] at h
      obtain ⟨outside, d₁, rfl⟩ := taken b₁ h₁
      obtain ⟨root, d₂, h₂, said⟩ := foldlM_element (b := { declaration? := d₁ }) element toldIn rfl rfl
      have rest := List.foldlM_append.symm.trans h
      rw [h₂] at rest
      obtain ⟨outside', d₃, e⟩ := (foldlM_outside (b := { declaration? := d₂, root? := some root }) rfl
        plain' toldAfter).2 b' rest
      exact ⟨List.forall_mem_append.2 ⟨outside, outside'⟩, root, d₃, e, said⟩

end Builder

/-! ## Documents -/

/-- Pieces that describe a document: they can be read and have one root, and the texts outside
of it are blank. -/
structure DescribeDocument (events : List Event) : Prop extends Readable events where
  root : ∃ before inside after, OneRoot events before inside after ∧
    ∀ written content, .text written ∈ before ++ after → unescape? written = some content →
      content.all Text.isBlank = true

namespace Document

theorem ofChars_eq_ok_iff {l : List Char} {document : Document} :
    ofChars l = .ok document ↔ (events l).2 = none ∧ ∃ b, (events l).1.foldlM Builder.step {} = .ok b ∧
      b.finish = .ok document := by
  rw [ofChars, ofEvents]
  cases hb : (events l).1.foldlM Builder.step {} with
  | error fault => simp [bind, Except.bind]
  | ok b =>
    cases hf : (events l).2 with
    | some fault => simp [bind, Except.bind]
    | none => simp [bind, Except.bind]

/-- The pieces of a document that was read describe it, and its root says what its pieces
say. -/
theorem describe_of_ofChars {l : List Char} {document : Document} (h : ofChars l = .ok document) :
    DescribeDocument (events l).1 ∧ ∃ before inside after,
      OneRoot (events l).1 before inside after ∧ Says inside document.root.toNode.marks := by
  obtain ⟨-, b, taken, finished⟩ := ofChars_eq_ok_iff.1 h
  have told := Builder.exists_says_of_foldlM taken
  have nested : Nested b.names b.root?.isSome (events l).1 :=
    Builder.nested_foldlM (b := {}) (.before (List.forall_mem_nil _)) taken
  rw [Builder.finish] at finished
  split at finished
  · cases finished
  · rename_i closed
    have nil : b.opened = [] := by simpa using closed
    split at finished
    · rename_i root hroot
      cases finished
      rw [Builder.names, nil, hroot] at nested
      cases nested with
      | after one =>
        obtain ⟨outside, root', d, rfl, said⟩ := (Builder.foldlM_oneRoot one told).2 b taken
        obtain rfl := Option.some.inj hroot
        have blank := fun written content hm => (outside (.text written) hm).blank written content rfl
        exact ⟨⟨readable_iff.2 told, _, _, _, one, blank⟩, _, _, _, one, said⟩
    · cases finished

theorem exists_ofChars {l : List Char} (fault : (events l).2 = none)
    (h : DescribeDocument (events l).1) : ∃ document, ofChars l = .ok document := by
  obtain ⟨before, inside, after, one, blank⟩ := h.root
  have outside : ∀ event ∈ before ++ after, event.IsOutside := fun event hm =>
    ⟨one.outside event hm, fun written content e => blank written content (e ▸ hm)⟩
  obtain ⟨root, d, taken⟩ :=
    (Builder.foldlM_oneRoot one (readable_iff.1 h.toReadable)).1 outside
  exact ⟨⟨d, root⟩, ofChars_eq_ok_iff.2 ⟨fault, _, taken, rfl⟩⟩

/-- Bytes are a document exactly if they are a text, its pieces end without a fault, and these
describe a document. The root then is what the pieces of the one element say, in their order,
and nothing else. -/
theorem ofBytes_exact (bytes : ByteArray) :
    ((∃ document, ofBytes bytes = .ok document) ↔
        ∃ text, String.fromUTF8? bytes = some text ∧ (events text.toList).2 = none ∧
          DescribeDocument (events text.toList).1) ∧
      ∀ text document before inside after, String.fromUTF8? bytes = some text →
        ofBytes bytes = .ok document → OneRoot (events text.toList).1 before inside after →
          Says inside document.root.toNode.marks := by
  rw [ofBytes]
  cases String.fromUTF8? bytes with
  | none =>
    refine ⟨⟨?_, ?_⟩, ?_⟩
    · rintro ⟨_, ⟨⟩⟩
    · rintro ⟨_, ⟨⟩, _⟩
    · rintro _ _ _ _ _ ⟨⟩
  | some text =>
    refine ⟨⟨?_, ?_⟩, ?_⟩
    · rintro ⟨document, h⟩
      exact ⟨text, rfl, (ofChars_eq_ok_iff.1 h).1, (describe_of_ofChars h).1⟩
    · rintro ⟨_, ⟨⟩, fault, describe⟩
      exact exists_ofChars fault describe
    · rintro _ document before inside after ⟨⟩ h one
      obtain ⟨before', inside', after', one', said⟩ := (describe_of_ofChars h).2
      rwa [one.unique one']

/-- A document with a piece of each kind, in the root and around it. -/
def mixedText : String :=
  "<?xml version=\"1.0\"?><!-- 1 --> <a k='1 &lt; 2'>x &amp; y<b/><![CDATA[<c>]]><?go?></a> "

/-- The pieces in front of the root, those of the root and those behind it. -/
def mixedEvents : List Event × List Event × List Event :=
  ([.declaration "xml version=\"1.0\"", .comment " 1 ", .text [' ']],
    [.start ⟨"a", " k='1 &lt; 2'".toList⟩, .text "x &amp; y".toList, .empty ⟨"b", []⟩, .cdata "<c>",
      .instruction, .close "a"], [.text [' ']])

theorem events_mixedText : events mixedText.toList =
    (mixedEvents.1 ++ mixedEvents.2.1 ++ mixedEvents.2.2, none) := by
  decide +kernel

theorem oneRoot_mixedText :
    OneRoot (events mixedText.toList).1 mixedEvents.1 mixedEvents.2.1 mixedEvents.2.2 where
  split := by rw [events_mixedText]
  element := .tags (.other rfl (.empty (.other rfl (.other rfl .nil))))
  outside := by decide

theorem ofBytes_exact_mixedText : ∃ document, ofBytes mixedText.toUTF8 = .ok document ∧
    Says mixedEvents.2.1 document.root.toNode.marks := by
  have text : String.fromUTF8? mixedText.toUTF8 = some mixedText := Text.fromUTF8?_toUTF8 mixedText
  have read : (ofBytes mixedText.toUTF8).toOption.isSome = true := by
    rw [ofBytes_toUTF8, ofChars, events_mixedText]
    decide +kernel
  cases h : ofBytes mixedText.toUTF8 with
  | error fault => rw [h] at read; cases read
  | ok document =>
    exact ⟨document, rfl, (ofBytes_exact mixedText.toUTF8).2 mixedText document _ _ _ text h
      oneRoot_mixedText⟩

end Document

end MapGate.Xml
