import MapGate.Proofs.Xml.Parsed
import MapGate.Proofs.Xml.PlainNames

/-!
# Trees read back as they were built

A tree that is read back as it was built says nothing that is lost in writing: its
names are names of XML, no key occurs twice in an element, its texts are non-empty
and stand apart, and character data and comments do not hold their own end marks
(`Node.Writable`). Such names are plain (`plainName_of_isXmlName`), content without
an end mark ends where it should (`endsAt_of_not_isInfix`), and joining texts changes
nothing (`Element.joined_of_writable`), so reading undoes writing
(`Document.ofBytes_render`).
-/

namespace MapGate.Xml

/-! ## Names -/

/-- The code points a name may start with, as ranges. -/
def nameStartRanges : List (Nat × Nat) :=
  [(0x3A, 0x3A), (0x41, 0x5A), (0x5F, 0x5F), (0x61, 0x7A), (0xC0, 0xD6), (0xD8, 0xF6),
    (0xF8, 0x2FF), (0x370, 0x37D), (0x37F, 0x1FFF), (0x200C, 0x200D), (0x2070, 0x218F),
    (0x2C00, 0x2FEF), (0x3001, 0xD7FF), (0xF900, 0xFDCF), (0xFDF0, 0xFFFD), (0x10000, 0xEFFFF)]

/-- The code points a name may go on with, as ranges: also hyphens, dots, digits and
marks that combine. -/
def nameRanges : List (Nat × Nat) :=
  nameStartRanges ++ [(0x2D, 0x2E), (0x30, 0x39), (0xB7, 0xB7), (0x300, 0x36F), (0x203F, 0x2040)]

/-- Whether a character lies in one of some ranges. -/
def inRanges (ranges : List (Nat × Nat)) (c : Char) : Bool :=
  ranges.any fun (first, last) => first ≤ c.toNat && c.toNat ≤ last

/-- Whether a text is a name, as XML 1.0 defines names. -/
def isXmlName (name : String) : Bool :=
  match name.toList with
  | [] => false
  | first :: rest => inRanges nameStartRanges first && rest.all (inRanges nameRanges)

theorem inRanges_of_start {c : Char} (h : inRanges nameStartRanges c = true) :
    inRanges nameRanges c = true := by
  rw [inRanges, nameRanges, List.any_append, Bool.or_eq_true]
  exact .inl h

/-- What may stand in a name ends nothing in a tag. -/
theorem isPlain_of_inRanges {c : Char} (h : inRanges nameRanges c = true) : isPlain c = true := by
  have ne : ∀ d, inRanges nameRanges d = false → c ≠ d := fun d hd e => by
    rw [e, hd] at h
    cases h
  have blank : isTrailingSpace c = false := by
    simp [isTrailingSpace, isSpace, ne ' ' (by decide), ne '\t' (by decide), ne '\r' (by decide),
      ne '\n' (by decide), ne '\x0c' (by decide)]
  exact isPlain_iff.2 ⟨blank, ne '>' (by decide), ne '"' (by decide), ne '\'' (by decide),
    ne '/' (by decide), ne '=' (by decide)⟩

/-- Names are plain. -/
theorem plainName_of_isXmlName {name : String} (h : isXmlName name = true) : PlainName name := by
  rw [isXmlName] at h
  split at h
  · cases h
  · rename_i first rest e
    obtain ⟨hf, hr⟩ := Bool.and_eq_true_iff.1 h
    have ne : ∀ d, inRanges nameStartRanges d = false → first ≠ d := fun d hd e => by
      rw [e, hd] at hf
      cases hf
    refine ⟨⟨first, rest, e, ne '!' (by decide), ne '?' (by decide)⟩, fun c hc => ?_⟩
    rw [e] at hc
    rcases List.mem_cons.1 hc with rfl | hc
    · exact isPlain_of_inRanges (inRanges_of_start hf)
    · exact isPlain_of_inRanges (List.all_eq_true.1 hr c hc)

/-! ## Content without its end mark -/

/-- A mark whose last character occurs once in it overlaps with no text in front of it: where
it starts a text that it also ends, it stands in what is in between. -/
theorem isPrefix_of_append_eq {m : List Char} {last : Char} (hm : last ∉ m) {l rest : List Char}
    (hl : l ≠ []) (h : l ++ (m ++ [last]) = m ++ [last] ++ rest) : m ++ [last] <+: l := by
  have starts : m ++ [last] <+: l ++ (m ++ [last]) := ⟨rest, h.symm⟩
  refine List.prefix_of_prefix_length_le starts (List.prefix_append l _) (Nat.not_lt.1 fun lt => ?_)
  -- The last character of the mark in front would stand within the mark behind.
  have positive := List.length_pos_iff.2 hl
  rw [List.length_append, List.length_singleton] at lt
  have at_last : (l ++ (m ++ [last]))[m.length]? = some last := by
    rw [h, List.append_assoc, List.getElem?_append_right (Nat.le_refl _), Nat.sub_self]
    rfl
  rw [List.getElem?_append_right (by omega), List.getElem?_append_left (by omega)] at at_last
  exact hm (List.mem_of_getElem? at_last)

/-- Such a mark is found where it was put, if there is none in the text in front of it. -/
theorem splitAtChars?_of_not_isInfix {m : List Char} {last : Char} (hm : last ∉ m) {l : List Char}
    (h : ¬ m ++ [last] <:+: l) :
    Text.splitAtChars? (m ++ [last]) (l ++ (m ++ [last])) = some (l, []) := by
  induction l with
  | nil =>
    have found := stripPrefixChars?_append_self (m ++ [last]) []
    cases e : m ++ [last] with
    | nil => cases List.append_ne_nil_of_right_ne_nil m (by simp) e
    | cons c mark =>
      rw [e, List.append_nil] at found
      rw [List.nil_append, Text.splitAtChars?, found]
  | cons c l ih =>
    have none : Text.stripPrefixChars? (m ++ [last]) (c :: (l ++ (m ++ [last]))) = none := by
      cases hs : Text.stripPrefixChars? (m ++ [last]) (c :: (l ++ (m ++ [last]))) with
      | none => rfl
      | some rest =>
        have whole := Text.eq_append_of_stripPrefixChars? hs
        exact absurd (isPrefix_of_append_eq hm (List.cons_ne_nil c l) whole).isInfix h
    have tail : ¬ m ++ [last] <:+: l := fun hi => h (hi.trans (List.suffix_cons c l).isInfix)
    rw [List.cons_append, Text.splitAtChars?, none, ih tail]
    rfl

theorem endsAt_of_not_isInfix {mark content : String} {m : List Char} {last : Char}
    (e : mark.toList = m ++ [last]) (hm : last ∉ m) (h : ¬ mark.toList <:+: content.toList) :
    EndsAt mark content := by
  rw [e] at h
  rw [EndsAt, e]
  exact splitAtChars?_of_not_isInfix hm h

/-! ## Texts that stand apart -/

/-- Whether a node is a text. -/
def Node.isText : Node → Bool
  | .text _ => true
  | _ => false

/-- No text stands next to a text. -/
def TextsApart (nodes : List Node) : Prop :=
  nodes.IsChain fun node next => ¬ (node.isText = true ∧ next.isText = true)

theorem mergeTexts_cons_of_isText {node : Node} (h : node.isText = false) (pending : List Char)
    (nodes : List Node) :
    mergeTexts pending (node :: nodes) = textNode pending ++ node :: mergeTexts [] nodes := by
  cases node with
  | text content => cases h
  | _ => rfl

/-- Texts that stand apart stay as they are. -/
theorem mergeTexts_of_apart : ∀ {nodes : List Node}, TextsApart nodes →
    (∀ content, .text content ∈ nodes → content ≠ "") → mergeTexts [] nodes = nodes
  | [], _, _ => rfl
  | .text content :: [], _, hne => by
    have := hne content List.mem_cons_self
    simp [mergeTexts, textNode, this]
  | .text content :: node :: nodes, ha, hne => by
    have apart := List.isChain_cons_cons.1 ha
    have hn : node.isText = false := by simpa [Node.isText] using apart.1
    have rest := mergeTexts_of_apart apart.2 fun c hc => hne c (List.mem_cons_of_mem _ hc)
    have := hne content List.mem_cons_self
    rw [mergeTexts_cons_of_isText hn] at rest
    rw [mergeTexts, List.nil_append, mergeTexts_cons_of_isText hn, (List.cons.inj rest).2]
    simp [textNode, this]
  | .element .. :: _, ha, hne | .cdata _ :: _, ha, hne | .comment _ :: _, ha, hne => by
    have rest := mergeTexts_of_apart (List.isChain_of_isChain_cons ha) fun c hc =>
      hne c (List.mem_cons_of_mem _ hc)
    rw [mergeTexts_cons_of_isText rfl, rest]
    rfl

/-! ## Trees that can be written -/

/-- An element with names of XML, different keys and texts that stand apart. -/
structure ElementWritable (name : String) (attributes : List (String × String))
    (children : List Node) : Prop where
  name : isXmlName name = true
  keys : ∀ entry ∈ attributes, isXmlName entry.1 = true
  distinct : (attributes.map (·.1)).Nodup
  apart : TextsApart children

/-- A node that says nothing that is lost in writing. -/
def Node.Writable : Node → Prop
  | .element name attributes children => ElementWritable name attributes children
  | .text content => content ≠ ""
  | .cdata content => ¬ "]]>".toList <:+: content.toList
  | .comment content => ¬ "-->".toList <:+: content.toList

theorem Node.Writable.isPlain {node : Node} (h : node.Writable) : node.IsPlain := by
  cases node with
  | element name attributes children =>
    exact ⟨plainName_of_isXmlName h.name, fun entry he => plainName_of_isXmlName (h.keys entry he)⟩
  | _ => trivial

theorem Node.Writable.contentRead {node : Node} (h : node.Writable) : node.ContentRead := by
  cases node with
  | element name attributes children =>
    exact ⟨fun entry he => (plainName_of_isXmlName (h.keys entry he)).keyReads, h.distinct⟩
  | text content => trivial
  | cdata content => exact endsAt_of_not_isInfix (m := "]]".toList) rfl (by decide) h
  | comment content => exact endsAt_of_not_isInfix (m := "--".toList) rfl (by decide) h

mutual

theorem Node.joined_of_writable : ∀ {node : Node}, node.Every Node.Writable → node.joined = node
  | .element name attributes children, h => by
    rw [Node.Every] at h
    have apart := mergeTexts_of_apart h.1.apart fun content hc =>
      (Node.everyIn_iff.1 h.2 _ hc).self
    rw [Node.joined, Node.allJoined_of_writable h.2, apart]
  | .text _, _ => rfl
  | .cdata _, _ => rfl
  | .comment _, _ => rfl

theorem Node.allJoined_of_writable : ∀ {nodes : List Node}, Node.EveryIn Node.Writable nodes →
    Node.allJoined nodes = nodes
  | [], _ => rfl
  | node :: nodes, h => by
    rw [Node.EveryIn] at h
    rw [Node.allJoined, Node.joined_of_writable h.1, Node.allJoined_of_writable h.2]

end

theorem Element.joined_of_writable {e : Element} (h : e.toNode.Every Node.Writable) :
    e.joined = e := by
  have same : some e.joined = some e := congrArg Node.element? (Node.joined_of_writable h)
  exact Option.some.inj same

/-- Reading undoes writing. -/
theorem Document.ofBytes_render {document : Document}
    (hd : ∀ content, document.declaration? = some content → DeclarationReads content)
    (hr : document.root.toNode.Every Node.Writable) :
    ofBytes document.render.toUTF8 = .ok document := by
  have tags : document.root.toNode.TagsRead :=
    .of_plain (Node.Every.imp (fun _ => Node.Writable.isPlain) _ hr)
  have content : document.root.toNode.ContentReads :=
    Node.Every.imp (fun _ => Node.Writable.contentRead) _ hr
  rw [ofBytes_toUTF8, ofChars_render hd tags content, Element.joined_of_writable hr]

/-- A tree with everything in it that has to be escaped or set apart. -/
def quotedTree : Element :=
  ⟨"wfs:Größe", [("title", "x < \"y\" & 'z' >"), ("xml:id", "")],
    [.text "1 < 2 && ]]>\r\n", .element "b" [] [], .text " ", .cdata "a ]]] > <b>]]",
      .comment "> -- <b> -"]⟩

theorem Document.ofBytes_render_quotedTree :
    ofBytes (Document.mk none quotedTree).render.toUTF8 = .ok ⟨none, quotedTree⟩ := by
  refine @ofBytes_render ⟨none, quotedTree⟩ (fun _ h => nomatch h) ?_
  simp only [quotedTree, Element.toNode, Node.Every, Node.EveryIn, and_true]
  refine ⟨⟨by decide, by decide, by decide, by simp [TextsApart, Node.isText]⟩, ?_,
    ⟨by decide, by decide, by decide, .nil⟩, ?_, ?_, ?_⟩ <;>
      simp [Node.Writable, List.infix_cons_iff]

end MapGate.Xml
