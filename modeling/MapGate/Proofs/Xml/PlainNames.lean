import MapGate.Proofs.Xml.ReadBack

/-!
# Plain names

A tag is read up to the first `>` outside quotes, its name up to the first blank,
and a slash at its end belongs to no name. Names without such characters are
plain. Elements and attributes with plain names have tags that are read back as
they are written (`tagRead_of_plain`, `Node.TagsRead.of_plain`).
-/

namespace MapGate.Xml

/-- A character that neither ends nor quotes anything in a tag. -/
def isPlain (c : Char) : Bool :=
  !isTrailingSpace c && c ≠ '>' && c ≠ '"' && c ≠ '\'' && c ≠ '/' && c ≠ '='

/-- Whether a name is plain. -/
def isPlainName (name : String) : Bool :=
  match name.toList with
  | [] => false
  | first :: rest => first ≠ '!' && first ≠ '?' && (first :: rest).all isPlain

/-- A name that is read as one wherever it stands in a tag. -/
structure PlainName (name : String) : Prop where
  starts : ∃ first rest, name.toList = first :: rest ∧ first ≠ '!' ∧ first ≠ '?'
  plain : ∀ c ∈ name.toList, isPlain c = true

theorem isPlainName_iff {name : String} : isPlainName name = true ↔ PlainName name := by
  rw [isPlainName]
  split
  · rename_i h
    constructor
    · exact fun e => absurd e Bool.false_ne_true
    · intro h
      obtain ⟨⟨_, _, e, -⟩, -⟩ := h
      rw [h] at e
      cases e
  · rename_i first rest h
    rw [Bool.and_eq_true, Bool.and_eq_true, decide_eq_true_eq, decide_eq_true_eq, List.all_eq_true,
      ← h]
    constructor
    · intro h
      obtain ⟨⟨hb, hq⟩, plain⟩ := h
      exact ⟨⟨first, rest, h, hb, hq⟩, plain⟩
    · intro h
      obtain ⟨⟨_, _, e, hb, hq⟩, plain⟩ := h
      obtain ⟨rfl, rfl⟩ := List.cons.inj (h.symm.trans e)
      exact ⟨⟨hb, hq⟩, plain⟩

instance : DecidablePred PlainName := fun _ => decidable_of_iff _ isPlainName_iff

/-- The keys of some attributes are plain. -/
def PlainKeys (attributes : List (String × String)) : Prop :=
  ∀ entry ∈ attributes, PlainName entry.1

/-- An element has a plain name and plain keys. -/
def Node.IsPlain : Node → Prop
  | .element name attributes _ => PlainName name ∧ PlainKeys attributes
  | _ => True

theorem isPlain_iff {c : Char} : isPlain c = true ↔
    isTrailingSpace c = false ∧ c ≠ '>' ∧ c ≠ '"' ∧ c ≠ '\'' ∧ c ≠ '/' ∧ c ≠ '=' := by
  simp [isPlain, and_assoc]

theorem isSpace_of_isPlain {c : Char} (h : isPlain c = true) : isSpace c = false := by
  have := (isPlain_iff.1 h).1
  rw [isTrailingSpace, Bool.or_eq_false_iff] at this
  exact this.1

/-- Plain characters do not end a tag, and no quotes start with them. -/
theorem unquoted_of_isPlain {c : Char} (h : isPlain c = true) : c ≠ '>' ∧ c ≠ '"' ∧ c ≠ '\'' :=
  have ⟨_, hg, hd, hs, _⟩ := isPlain_iff.1 h
  ⟨hg, hd, hs⟩

/-- A plain name is read as a key. -/
theorem PlainName.keyReads {key : String} (h : PlainName key) : KeyReads key := by
  obtain ⟨first, rest, e, -⟩ := h.starts
  refine ⟨first, rest, e, isSpace_of_isPlain (h.plain first (e ▸ List.mem_cons_self)), ?_⟩
  intro c hc
  have plain := h.plain c (e ▸ List.mem_cons_of_mem _ hc)
  exact ⟨(isPlain_iff.1 plain).2.2.2.2.2, isSpace_of_isPlain plain⟩

/-! ## Where a tag ends -/

theorem cutTag?_plain {l : List Char} (h : ∀ c ∈ l, c ≠ '>' ∧ c ≠ '"' ∧ c ≠ '\'')
    (seen r : List Char) : cutTag? none seen (l ++ r) = cutTag? none (l.reverse ++ seen) r := by
  induction l generalizing seen with
  | nil => rfl
  | cons c l ih =>
    obtain ⟨hg, hd, hs⟩ := h c List.mem_cons_self
    rw [List.cons_append, cutTag?]
    simp only [hg, hd, hs, or_self, if_false]
    rw [ih (fun c hc => h c (List.mem_cons_of_mem _ hc)), List.reverse_cons, List.append_assoc]
    rfl

theorem cutTag?_quoted {l : List Char} (h : '"' ∉ l) (seen r : List Char) :
    cutTag? (some '"') seen (l ++ '"' :: r) = cutTag? none ('"' :: (l.reverse ++ seen)) r := by
  induction l generalizing seen with
  | nil => rfl
  | cons c l ih =>
    rw [List.mem_cons, not_or] at h
    rw [List.cons_append, cutTag?, if_neg (Ne.symm h.1), ih h.2, List.reverse_cons,
      List.append_assoc]
    rfl

theorem cutTag?_attributes {attributes : List (String × String)} (h : PlainKeys attributes)
    (seen r : List Char) : cutTag? none seen (renderAttributes attributes ++ r) =
      cutTag? none ((renderAttributes attributes).reverse ++ seen) r := by
  induction attributes generalizing seen with
  | nil => rfl
  | cons entry attributes ih =>
    obtain ⟨key, value⟩ := entry
    have hk : ∀ c ∈ ' ' :: key.toList ++ ['='], c ≠ '>' ∧ c ≠ '"' ∧ c ≠ '\'' := fun c hc => by
      rw [List.mem_append, List.mem_cons, List.mem_singleton] at hc
      rcases hc with (rfl | hc) | rfl
      · decide
      · exact unquoted_of_isPlain ((h _ List.mem_cons_self).plain c hc)
      · decide
    have opens : ∀ seen l, cutTag? none seen ('"' :: l) = cutTag? (some '"') ('"' :: seen) l :=
      fun _ _ => rfl
    have rest := ih fun e he => h e (List.mem_cons_of_mem _ he)
    rw [renderAttributes_cons, show ' ' :: (key.toList ++ '=' :: '"' :: escape value.toList ++
        '"' :: renderAttributes attributes) ++ r = (' ' :: key.toList ++ ['=']) ++
          '"' :: (escape value.toList ++ '"' :: (renderAttributes attributes ++ r)) by simp,
      cutTag?_plain hk, opens, cutTag?_quoted (quote_notMem_escape _), rest]
    simp

theorem cutTag?_render {name : String} {attributes : List (String × String)} (hn : PlainName name)
    (ha : PlainKeys attributes) (r : List Char) :
    cutTag? none [] (name.toList ++ renderAttributes attributes ++ r) =
      cutTag? none (name.toList ++ renderAttributes attributes).reverse r := by
  have plain : ∀ c ∈ name.toList, c ≠ '>' ∧ c ≠ '"' ∧ c ≠ '\'' := fun c hc =>
    unquoted_of_isPlain (hn.plain c hc)
  rw [List.append_assoc, cutTag?_plain plain, cutTag?_attributes ha, List.reverse_append,
    List.append_nil]

/-! ## What a tag says -/

/-- The name is what stands before the first blank. -/
theorem cut_name {name : String} (hn : PlainName name) (attributes : List (String × String)) :
    (name.toList ++ renderAttributes attributes).takeWhile (!isSpace ·) = name.toList ∧
      (name.toList ++ renderAttributes attributes).dropWhile (!isSpace ·) =
        renderAttributes attributes := by
  have all : ∀ c ∈ name.toList, (!isSpace c) = true := fun c hc => by
    rw [isSpace_of_isPlain (hn.plain c hc)]; rfl
  rw [List.takeWhile_append_of_pos all, List.dropWhile_append_of_pos all]
  cases attributes with
  | nil => simp [renderAttributes]
  | cons entry attributes =>
    obtain ⟨key, value⟩ := entry
    rw [renderAttributes_cons, List.takeWhile_cons_of_neg (by decide),
      List.dropWhile_cons_of_neg (by decide)]
    exact ⟨List.append_nil _, rfl⟩

/-- Attributes end in a quote, where there are any. -/
theorem exists_renderAttributes_eq (attributes : List (String × String)) :
    attributes = [] ∨ ∃ l, renderAttributes attributes = l ++ ['"'] := by
  induction attributes with
  | nil => exact .inl rfl
  | cons entry attributes ih =>
    obtain ⟨key, value⟩ := entry
    right
    rw [renderAttributes_cons]
    rcases ih with rfl | ⟨l, e⟩
    · exact ⟨' ' :: key.toList ++ '=' :: '"' :: escape value.toList, by simp [renderAttributes]⟩
    · exact ⟨' ' :: key.toList ++ '=' :: '"' :: escape value.toList ++ '"' :: l, by simp [e]⟩

theorem getLast?_render_ne {name : String} (hn : PlainName name)
    (attributes : List (String × String)) :
    (name.toList ++ renderAttributes attributes).getLast? ≠ some '/' := by
  obtain rfl | ⟨l, e⟩ := exists_renderAttributes_eq attributes
  · intro h
    rw [renderAttributes, List.flatMap_nil, List.append_nil] at h
    have := isPlain_iff.1 (hn.plain _ (List.mem_of_getLast? h))
    exact this.2.2.2.2.1 rfl
  · rw [e, ← List.append_assoc, List.getLast?_concat]
    decide

theorem readMarkup_cons {c : Char} {l : List Char} (h : c ≠ '!' ∧ c ≠ '/' ∧ c ≠ '?') :
    readMarkup (c :: l) = match cutTag? none [] (c :: l) with
      | some (content, rest) => .ok (tagEvent content, rest)
      | none => .error .markup := by
  unfold readMarkup
  split
  · rename_i e; exact absurd (List.cons.inj e).1 h.1
  · rename_i e; exact absurd (List.cons.inj e).1 h.2.1
  · rename_i e; exact absurd (List.cons.inj e).1 h.2.2
  · rfl

theorem closedName_plain {name : String} (hn : PlainName name) : closedName name.toList = name := by
  obtain ⟨first, rest, e, -⟩ := hn.starts
  have plain : ∀ c ∈ name.toList.reverse, isTrailingSpace c = false := fun c hc =>
    (isPlain_iff.1 (hn.plain c (List.mem_reverse.1 hc))).1
  have same : name.toList.reverse.dropWhile isTrailingSpace = name.toList.reverse := by
    cases h : name.toList.reverse with
    | nil => rfl
    | cons c l => rw [List.dropWhile_cons_of_neg (by simp [plain c (h ▸ List.mem_cons_self)])]
  simp only [closedName, same, List.reverse_reverse, ite_self, String.ofList_toList]

/-- A tag with plain names is read as it is written. -/
theorem tagRead_of_plain {name : String} {attributes : List (String × String)}
    (hn : PlainName name) (ha : PlainKeys attributes) (isEmpty : Bool) :
    TagRead name attributes isEmpty := by
  obtain ⟨first, rest, e, hb, hq⟩ := hn.starts
  have plain := isPlain_iff.1 (hn.plain first (e ▸ List.mem_cons_self))
  let content := name.toList ++ renderAttributes attributes
  have markup : ∀ r, readMarkup (content ++ r) = match cutTag? none content.reverse r with
      | some (content, rest) => .ok (tagEvent content, rest)
      | none => .error .markup := fun r => by
    rw [← cutTag?_render hn ha r]
    simp only [content, e, List.cons_append]
    exact readMarkup_cons ⟨hb, plain.2.2.2.2.1, hq⟩
  have last := getLast?_render_ne hn attributes
  have cut := cut_name hn attributes
  rw [TagRead]
  split
  · have empty : tagEvent (content ++ ['/']) = .empty ⟨name, renderAttributes attributes⟩ := by
      rw [tagEvent, List.getLast?_concat, if_pos rfl, List.dropLast_concat]
      simp only [content, cut, String.ofList_toList]
    rw [markup, ← empty]
    simp [cutTag?]
  · have start : tagEvent content = .start ⟨name, renderAttributes attributes⟩ := by
      rw [tagEvent, if_neg last]
      simp only [content, cut, String.ofList_toList]
    refine ⟨?_, ?_⟩
    · rw [markup, ← start]
      simp [cutTag?]
    · have ends : '>' ∉ name.toList := fun h => (isPlain_iff.1 (hn.plain _ h)).2.1 rfl
      have cut := cut_gt ends []
      rw [List.cons_append, readMarkup, cut.1, cut.2, closedName_plain hn]

/-- Plain names everywhere make all tags read. -/
theorem Node.TagsRead.of_plain {node : Node} (h : node.Every Node.IsPlain) : node.TagsRead :=
  Every.imp (fun node h => by
    cases node with
    | element name attributes children => exact tagRead_of_plain h.1 h.2 _
    | _ => trivial) node h

end MapGate.Xml
