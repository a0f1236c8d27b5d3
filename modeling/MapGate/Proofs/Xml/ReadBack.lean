import MapGate.Proofs.Xml.Elements
import MapGate.Proofs.Xml.Joined
import MapGate.Proofs.Xml.Reading

/-!
# Documents read back

A written document is read back as the document it was written for
(`ofChars_render`), when each tag is read back as it is written (`Node.TagsRead`)
and comments and character data end where they say (`Node.ContentReads`), except
that texts that stand next to each other become one (`Node.joined`).
-/

namespace MapGate.Xml

/-! ## What can be read back -/

/-- The tags of an element are read back as they are written. -/
def TagRead (name : String) (attributes : List (String × String)) (isEmpty : Bool) : Prop :=
  if isEmpty then
    readMarkup (name.toList ++ renderAttributes attributes ++ ['/', '>']) =
      .ok (.empty ⟨name, renderAttributes attributes⟩, [])
  else
    readMarkup (name.toList ++ renderAttributes attributes ++ ['>']) =
        .ok (.start ⟨name, renderAttributes attributes⟩, []) ∧
      readMarkup ('/' :: name.toList ++ ['>']) = .ok (.close name, [])

/-- The tags of a node, if it is an element, are read back as they are written. -/
def Node.TagRead : Node → Prop
  | .element name attributes children => Xml.TagRead name attributes children.isEmpty
  | _ => True

/-- The attributes of a node can be listed in a tag, and a comment or character
data does not hold its own end mark. -/
def Node.ContentRead : Node → Prop
  | .element _ attributes _ => AttributesWellFormed attributes
  | .text _ => True
  | .cdata content => EndsAt "]]>" content
  | .comment content => EndsAt "-->" content

/-- All tags in a node are read back as they are written. -/
abbrev Node.TagsRead (node : Node) : Prop := node.Every TagRead

/-- Everything in a node but its tags is read back as it is written. -/
abbrev Node.ContentReads (node : Node) : Prop := node.Every ContentRead

/-! ## Reading pieces back -/

/-- An element is written as markup. -/
theorem exists_render_element (name : String) (attributes : List (String × String))
    (children : List Node) :
    ∃ tail, (Node.element name attributes children).render = '<' :: tail := by
  rw [Node.render_element]
  split <;> exact ⟨_, rfl⟩

namespace Builder

/-- A tree in which an element is open that holds some nodes. -/
def within (b : Builder) (e : OpenElement) (nodes : List Node) : Builder :=
  { b with opened := { e with content := nodes.reverse ++ e.content } :: b.opened }

theorem readFrom_text (b : Builder) (e : OpenElement) (nodes : List Node) (pending r : List Char) :
    (b.within e nodes).readFrom (escape pending ++ '<' :: r) =
      (b.within e (nodes ++ textNode pending)).readFrom ('<' :: r) := by
  by_cases hp : pending = []
  · subst hp
    simp [textNode, escape]
  · have hlt : ∀ c ∈ escape pending, decide (c ≠ '<') = true := fun c hc => by
      simpa using (of_mem_escape hc).1
    obtain ⟨c, l, hc⟩ := List.exists_cons_of_ne_nil (mt escape_eq_nil_iff.1 hp)
    have read : readEvent (escape pending ++ '<' :: r) =
        .ok (some (.text (escape pending), '<' :: r)) := by
      have hne : c ≠ '<' := by simpa using hlt c (hc ▸ List.mem_cons_self)
      have cut : (escape pending ++ '<' :: r).takeWhile (· ≠ '<') = escape pending ∧
          (escape pending ++ '<' :: r).dropWhile (· ≠ '<') = '<' :: r := by
        rw [List.takeWhile_append_of_pos hlt, List.dropWhile_append_of_pos hlt]; simp
      rw [hc, List.cons_append, readEvent, if_pos hne, ← List.cons_append, ← hc, cut.1, cut.2]
    rw [readFrom_of_readEvent read rfl, step, unescape?_escape]
    simp [within, place, textNode, hp]
    rfl

theorem readEvent_markup {l r : List Char} {event : Event} (h : readMarkup l = .ok (event, r)) :
    readEvent ('<' :: l) = .ok (some (event, r)) := by
  cases l with
  | nil => cases h
  | cons c l =>
    have lt : ¬ '<' ≠ '<' := not_not_intro rfl
    rw [readEvent, if_neg lt, List.isEmpty_cons, if_neg Bool.false_ne_true, h]
    rfl

theorem attach_within (b : Builder) (e : OpenElement) (nodes : List Node) (child : Element) :
    (b.within e nodes).attach child = .ok (b.within e (nodes ++ [child.toNode])) := by
  simp [attach, within, place]

/-- A comment or character data is read behind a text as a part of the element it is
in, and then the rest is read. -/
theorem readFrom_part {b : Builder} {e : OpenElement} {nodes after : List Node}
    {pending : List Char} {node : Node} {event : Event} {l l' r : List Char}
    (hn : ∀ content, node ≠ .text content) (h : readMarkup l = .ok (event, l'))
    (hs : ∀ b : Builder, b.step event = .ok (b.place node))
    (ho : ∀ opened, event.nextOpened opened = some opened)
    (rest : (b.within e (nodes ++ textNode pending ++ [node])).readFrom l' =
      (b.within e (nodes ++ textNode pending ++ [node] ++ mergeTexts [] after)).readFrom r) :
    (b.within e nodes).readFrom (escape pending ++ '<' :: l) =
      (b.within e (nodes ++ mergeTexts pending (node :: after))).readFrom r := by
  rw [readFrom_text, readFrom_of_readEvent (readEvent_markup h) (ho _), hs,
    append_mergeTexts_cons hn, ← rest]
  simp [within, place]
  rfl

/-- An end tag closes the element that is open. -/
theorem readFrom_close (b : Builder) {e : OpenElement} {nodes : List Node} {l r : List Char}
    (h : readMarkup l = .ok (.close e.name, r)) :
    (b.within e nodes).readFrom ('<' :: l) =
      b.attach ⟨e.name, e.attributes, e.content.reverse ++ nodes⟩ >>= fun b' => b'.readFrom r := by
  have hn : (Event.close e.name).nextOpened (b.within e nodes).names = some b.names := by
    simp [within, names, Event.nextOpened]
  rw [readFrom_of_readEvent (readEvent_markup h) hn]
  simp [within, step, OpenElement.close]

mutual

/-- A written element is read back and put where it belongs. -/
theorem readFrom_element (b : Builder) (name : String) (attributes : List (String × String)) :
    ∀ children : List Node, (Node.element name attributes children).TagsRead →
      (Node.element name attributes children).ContentReads → ∀ r : List Char,
      b.readFrom ((Node.element name attributes children).render ++ r) =
        b.attach (Element.joined ⟨name, attributes, children⟩) >>= fun b' => b'.readFrom r
  | [], ht, hc, r => by
    rw [Node.TagsRead, Node.Every] at ht
    rw [Node.ContentReads, Node.Every] at hc
    have read := readEvent_markup (readMarkup_tag_append rfl ht.1 r)
    rw [Node.render_element, List.isEmpty_nil, if_pos rfl]
    refine (readFrom_of_readEvent read rfl).trans ?_
    rw [step, attributes_render hc.1]
    rfl
  | child :: children, ht, hc, r => by
    rw [Node.TagsRead, Node.Every] at ht
    rw [Node.ContentReads, Node.Every] at hc
    obtain ⟨⟨hs, he⟩, hts⟩ := ht
    -- The start tag opens the element, and its end tag finds it open behind its content.
    let opened : OpenElement := ⟨name, attributes, []⟩
    let content := mergeTexts [] (Node.allJoined (child :: children))
    have start := readEvent_markup (readMarkup_tag_append rfl hs
      (Node.renderAll (child :: children) ++ '<' :: '/' :: name.toList ++ '>' :: r))
    have inside : (b.within opened []).readFrom
        (Node.renderAll (child :: children) ++ '<' :: '/' :: name.toList ++ '>' :: r) =
        (b.within opened content).readFrom ('<' :: '/' :: name.toList ++ '>' :: r) := by
      rw [List.append_assoc]
      exact readFrom_all b opened [] [] (child :: children) hts hc.2 ('/' :: name.toList ++ '>' :: r)
    have close := @readFrom_close b opened content _ _ (readMarkup_close_append he r)
    have text : (Node.element name attributes (child :: children)).render ++ r =
        '<' :: (name.toList ++ renderAttributes attributes ++ ['>'] ++
          (Node.renderAll (child :: children) ++ '<' :: '/' :: name.toList ++ '>' :: r)) := by
      simp [Node.render_element]
    rw [text, readFrom_of_readEvent start rfl, step, attributes_render hc.1]
    exact inside.trans close
termination_by children => 2 * sizeOf children + 1

/-- The content of an element is read back behind a text and in front of any
markup. -/
theorem readFrom_all (b : Builder) (e : OpenElement) (nodes : List Node) (pending : List Char) :
    ∀ children : List Node, Node.EveryIn Node.TagRead children → Node.EveryIn Node.ContentRead children →
      ∀ r : List Char, (b.within e nodes).readFrom
          (escape pending ++ (Node.renderAll children ++ '<' :: r)) =
        (b.within e (nodes ++ mergeTexts pending (Node.allJoined children))).readFrom ('<' :: r)
  | [], _, _, r => readFrom_text b e nodes pending r
  | .text content :: children, ht, hc, r => by
    -- The text waits with those before it: they are read as one when markup follows.
    rw [Node.EveryIn] at ht hc
    have rest := readFrom_all b e nodes (pending ++ content.toList) children ht.2 hc.2 r
    rw [Node.renderAll_cons, Node.render_text, Node.allJoined, Node.joined, mergeTexts, ← rest,
      escape_append]
    simp
  | .element name attributes content :: children, ht, hc, r => by
    rw [Node.EveryIn] at ht hc
    let before := nodes ++ textNode pending
    let node := (Node.element name attributes content).joined
    have child := readFrom_element (b.within e before) name attributes content ht.1 hc.1
      (Node.renderAll children ++ '<' :: r)
    have attached : (b.within e before).attach (Element.joined ⟨name, attributes, content⟩) =
        .ok (b.within e (before ++ [node])) := attach_within ..
    have rest : (b.within e (before ++ [node])).readFrom (Node.renderAll children ++ '<' :: r) =
        (b.within e (before ++ [node] ++ mergeTexts [] (Node.allJoined children))).readFrom
          ('<' :: r) := readFrom_all b e _ [] children ht.2 hc.2 r
    obtain ⟨tail, text⟩ := exists_render_element name attributes content
    rw [Node.renderAll_cons, List.append_assoc, text, List.cons_append, readFrom_text,
      ← List.cons_append, ← text, child, attached]
    rw [Node.allJoined, append_mergeTexts_cons fun _ e => by rw [Node.joined] at e; cases e]
    exact rest
  | .cdata content :: children, ht, hc, r => by
    rw [Node.EveryIn] at ht hc
    have rest := readFrom_all b e (nodes ++ textNode pending ++ [.cdata content]) [] children
      ht.2 hc.2 r
    have text : Node.renderAll (.cdata content :: children) ++ '<' :: r =
        '<' :: ("![CDATA[".toList ++ content.toList ++ "]]>".toList ++
          (Node.renderAll children ++ '<' :: r)) := by
      simp [Node.renderAll_cons, Node.render_cdata]
    rw [text, Node.allJoined, Node.joined]
    exact readFrom_part (fun _ => Node.noConfusion) (readMarkup_cdata hc.1.self _) (fun _ => rfl)
      (fun _ => rfl) rest
  | .comment content :: children, ht, hc, r => by
    rw [Node.EveryIn] at ht hc
    have rest := readFrom_all b e (nodes ++ textNode pending ++ [.comment content]) [] children
      ht.2 hc.2 r
    have text : Node.renderAll (.comment content :: children) ++ '<' :: r =
        '<' :: ("!--".toList ++ content.toList ++ "-->".toList ++
          (Node.renderAll children ++ '<' :: r)) := by
      simp [Node.renderAll_cons, Node.render_comment]
    rw [text, Node.allJoined, Node.joined]
    exact readFrom_part (fun _ => Node.noConfusion) (readMarkup_comment hc.1.self _) (fun _ => rfl)
      (fun _ => rfl) rest
termination_by children => 2 * sizeOf children
decreasing_by
  all_goals simp_wf
  all_goals omega

end

theorem readFrom_nil (b : Builder) : b.readFrom [] = b.finish := by
  have none : eventsFrom b.names [] = ([], none) := by rw [eventsFrom]; rfl
  rw [readFrom, none]
  rfl

/-- The root is read back where nothing is read yet but the declaration. -/
theorem readFrom_root (declaration? : Option String) {root : Element} (ht : root.toNode.TagsRead)
    (hc : root.toNode.ContentReads) :
    ({ declaration? } : Builder).readFrom root.toNode.render = .ok ⟨declaration?, root.joined⟩ := by
  have read := readFrom_element { declaration? } root.name root.attributes root.children ht hc []
  rw [List.append_nil] at read
  refine read.trans ?_
  show ({ declaration?, root? := some root.joined } : Builder).readFrom [] = _
  rw [readFrom_nil]
  rfl

end Builder

/-- A written document is read back. -/
theorem Document.ofChars_render {document : Document}
    (hd : ∀ content, document.declaration? = some content → DeclarationReads content)
    (ht : document.root.toNode.TagsRead) (hc : document.root.toNode.ContentReads) :
    ofChars document.render.toList = .ok ⟨document.declaration?, document.root.joined⟩ := by
  obtain ⟨tail, start⟩ := exists_render_element document.root.name document.root.attributes
    document.root.children
  have markup : ∀ l r : List Char, '<' :: l ≠ '\uFEFF' :: r := fun _ _ e =>
    absurd (List.cons.inj e).1 (by decide)
  cases h : document.declaration? with
  | none =>
    rw [render, h, List.nil_append, String.toList_ofList, Builder.ofChars_eq_readFrom, ← h]
    · exact Builder.readFrom_root _ ht hc
    · exact fun r => start ▸ markup tail r
  | some content =>
    have text : "<?".toList ++ content.toList ++ "?>".toList ++ document.root.toNode.render =
        '<' :: ('?' :: content.toList ++ "?>".toList ++ document.root.toNode.render) := rfl
    rw [render, h, String.toList_ofList, text, Builder.ofChars_eq_readFrom (markup _),
      Builder.readFrom_of_readEvent
        (Builder.readEvent_markup (readMarkup_declaration (hd content h) _)) rfl]
    exact Builder.readFrom_root (some content) ht hc

end MapGate.Xml
