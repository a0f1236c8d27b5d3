import MapGate.Proofs.Xml.Attributes

/-!
# Pieces of markup read back

A piece of markup that is read on its own is read in front of anything else as
well, since it has an end of its own: the tags of an element
(`readMarkup_tag_append`, `readMarkup_close_append`), comments and character data
(`readMarkup_comment`, `readMarkup_cdata`) and a declaration
(`readMarkup_declaration`).
-/

namespace MapGate.Xml

/-! ## Tags -/

theorem cutTag?_append {quote? : Option Char} {seen l content rest : List Char}
    (h : cutTag? quote? seen l = some (content, rest)) (r : List Char) :
    cutTag? quote? seen (l ++ r) = some (content, rest ++ r) := by
  induction l generalizing quote? seen with
  | nil => simp [cutTag?] at h
  | cons c l ih =>
    rw [List.cons_append]
    cases quote? with
    | none =>
      rw [cutTag?] at h ⊢
      split at h
      · cases h; rename_i hc; rw [if_pos hc]
      · rename_i hc; rw [if_neg hc]; exact ih h
    | some q =>
      rw [cutTag?] at h ⊢
      exact ih h

/-- Whether a piece is a tag that may open an element. -/
def Event.isTag : Event → Bool
  | start _ | empty _ => true
  | _ => false

theorem isTag_readBang? {l rest : List Char} {event : Event}
    (h : readBang? l = .ok (event, rest)) : event.isTag = false := by
  unfold readBang? at h
  split at h
  · split at h
    · cases h; rfl
    · cases h
  · split at h
    · split at h
      · cases h; rfl
      · cases h
    · split at h
      · split at h
        · split at h
          · cases h
          · cases h; rfl
        · cases h
      · cases h

theorem isTag_instruction? {content : List Char} {event : Event}
    (h : instruction? content = some event) : event.isTag = false := by
  unfold instruction? at h
  split at h
  · cases h
  · split at h
    · cases h; split <;> rfl
    · cases h; rfl

/-- A tag that is read on its own is read in front of anything. -/
theorem readMarkup_tag_append {l rest : List Char} {event : Event} (ht : event.isTag = true)
    (h : readMarkup l = .ok (event, rest)) (r : List Char) :
    readMarkup (l ++ r) = .ok (event, rest ++ r) := by
  unfold readMarkup at h
  split at h
  · rw [isTag_readBang? h] at ht; cases ht
  · cases h; cases ht
  · split at h
    · rename_i e; cases h; rw [isTag_instruction? e] at ht; cases ht
    · cases h
  · rename_i h₁ h₂ h₃
    split at h
    · rename_i content rest' hc
      cases h
      cases l with
      | nil => simp [cutTag?] at hc
      | cons c l =>
        have hr := cutTag?_append hc r
        rw [List.cons_append] at hr ⊢
        unfold readMarkup
        split
        · rename_i e; exact (h₁ l (by rw [(List.cons.inj e).1])).elim
        · rename_i e; exact (h₂ l (by rw [(List.cons.inj e).1])).elim
        · rename_i e; exact (h₃ l (by rw [(List.cons.inj e).1])).elim
        · rw [hr]
    · cases h

theorem gt_notMem_of_close {name : List Char} (h : ((name ++ ['>']).dropWhile (· ≠ '>')).drop 1 = []) :
    '>' ∉ name := by
  induction name with
  | nil => exact List.not_mem_nil
  | cons c name ih =>
    by_cases hc : c = '>'
    · subst hc; simp at h
    · rw [List.cons_append, List.dropWhile_cons_of_pos (by simpa using hc)] at h
      rw [List.mem_cons, not_or]
      exact ⟨Ne.symm hc, ih h⟩

theorem cut_gt {l : List Char} (h : '>' ∉ l) (r : List Char) :
    (l ++ '>' :: r).takeWhile (· ≠ '>') = l ∧ ((l ++ '>' :: r).dropWhile (· ≠ '>')).drop 1 = r := by
  have all : ∀ c ∈ l, decide (c ≠ '>') = true := fun c hc => by
    simpa using fun e : c = '>' => h (e ▸ hc)
  constructor
  · rw [List.takeWhile_append_of_pos all]; simp
  · rw [List.dropWhile_append_of_pos all]; simp

/-- An end tag that is read on its own is read in front of anything. -/
theorem readMarkup_close_append {name : String} {l : List Char}
    (h : readMarkup ('/' :: l ++ ['>']) = .ok (.close name, [])) (r : List Char) :
    readMarkup ('/' :: l ++ '>' :: r) = .ok (.close name, r) := by
  rw [List.cons_append, readMarkup, Except.ok.injEq, Prod.mk.injEq] at h
  obtain ⟨hn, hr⟩ := h
  have hg := gt_notMem_of_close hr
  rw [(cut_gt hg []).1] at hn
  rw [List.cons_append, readMarkup, (cut_gt hg r).1, (cut_gt hg r).2, hn]

/-! ## Comments, character data and declarations -/

theorem stripPrefixChars?_append_self (p r : List Char) : Text.stripPrefixChars? p (p ++ r) = some r := by
  induction p with
  | nil => rfl
  | cons c p ih => rw [List.cons_append, Text.stripPrefixChars?, if_pos rfl, ih]

theorem stripPrefixChars?_append {p l rest : List Char} (h : Text.stripPrefixChars? p l = some rest)
    (r : List Char) : Text.stripPrefixChars? p (l ++ r) = some (rest ++ r) := by
  rw [Text.eq_append_of_stripPrefixChars? h, List.append_assoc, stripPrefixChars?_append_self]

/-- Where a list is long enough, what follows it does not matter. -/
theorem stripPrefixChars?_append_of_none {p l : List Char} (hl : p.length ≤ l.length)
    (h : Text.stripPrefixChars? p l = none) (r : List Char) :
    Text.stripPrefixChars? p (l ++ r) = none := by
  induction p generalizing l with
  | nil => cases h
  | cons c p ih =>
    cases l with
    | nil => simp at hl
    | cons d l =>
      rw [List.cons_append]
      rw [Text.stripPrefixChars?] at h ⊢
      split at h
      · rename_i e; rw [if_pos e]; exact ih (by simpa using hl) h
      · rename_i e; rw [if_neg e]

theorem splitAtChars?_append {mark l before rest : List Char}
    (h : Text.splitAtChars? mark l = some (before, rest)) (r : List Char) (hm : mark ≠ []) :
    Text.splitAtChars? mark (l ++ r) = some (before, rest ++ r) := by
  induction l generalizing before with
  | nil =>
    rw [Text.splitAtChars?, if_neg (by simpa using hm)] at h
    cases h
  | cons c l ih =>
    rw [List.cons_append]
    rw [Text.splitAtChars?] at h ⊢
    split at h
    · rename_i e
      cases h
      rw [← List.cons_append, stripPrefixChars?_append e]
    · rename_i e
      obtain ⟨⟨before', rest'⟩, hs, e'⟩ := Option.map_eq_some_iff.1 h
      cases e'
      have hl : mark.length ≤ (c :: l).length := by
        rw [Text.eq_append_of_splitAtChars? hs]
        simp only [List.length_cons, List.length_append]
        omega
      rw [← List.cons_append, stripPrefixChars?_append_of_none hl e, ih hs]
      rfl

/-- What stands before the first mark is found before it again. -/
theorem splitAtChars?_self {mark l before rest : List Char}
    (h : Text.splitAtChars? mark l = some (before, rest)) :
    Text.splitAtChars? mark (before ++ mark) = some (before, []) := by
  induction l generalizing before with
  | nil =>
    rw [Text.splitAtChars?] at h
    split at h
    · rename_i e; cases h; rw [List.isEmpty_iff.1 e]; rfl
    · cases h
  | cons c l ih =>
    have whole := Text.eq_append_of_splitAtChars? h
    rw [Text.splitAtChars?] at h
    split at h
    · cases h
      cases mark with
      | nil => rfl
      | cons d mark =>
        have := stripPrefixChars?_append_self (d :: mark) []
        rw [List.append_nil] at this
        rw [List.nil_append, Text.splitAtChars?, this]
    · rename_i e
      obtain ⟨⟨before', rest'⟩, hs, e'⟩ := Option.map_eq_some_iff.1 h
      cases e'
      have none : Text.stripPrefixChars? mark (c :: (before' ++ mark)) = none := by
        cases hp : Text.stripPrefixChars? mark (c :: (before' ++ mark)) with
        | none => rfl
        | some found =>
          have := stripPrefixChars?_append hp rest
          rw [List.cons_append, ← List.cons_append, ← List.cons_append, ← whole, e] at this
          cases this
      rw [List.cons_append, Text.splitAtChars?, none, ih hs]
      rfl

/-- Text that is found to end where its end mark is. -/
def EndsAt (mark content : String) : Prop :=
  Text.splitAtChars? mark.toList (content.toList ++ mark.toList) = some (content.toList, [])

theorem endsAt_of_splitAtChars? {mark : String} {l before rest : List Char}
    (h : Text.splitAtChars? mark.toList l = some (before, rest)) :
    EndsAt mark (String.ofList before) := by
  rw [EndsAt, String.toList_ofList]
  exact splitAtChars?_self h

/-- What ends at its mark ends there in front of anything. -/
theorem EndsAt.append {mark content : String} (h : EndsAt mark content) (hm : mark.toList ≠ [])
    (r : List Char) : Text.splitAtChars? mark.toList (content.toList ++ mark.toList ++ r) =
      some (content.toList, r) :=
  splitAtChars?_append h r hm

theorem readMarkup_comment {content : String} (h : EndsAt "-->" content) (r : List Char) :
    readMarkup ("!--".toList ++ content.toList ++ "-->".toList ++ r) =
      .ok (.comment content, r) := by
  rw [show "!--".toList = '!' :: "--".toList from rfl, List.append_assoc, List.append_assoc,
    List.cons_append, ← List.append_assoc content.toList]
  simp only [readMarkup, readBang?, stripPrefixChars?_append_self, h.append (by decide),
    String.ofList_toList]

theorem stripKeyword?_cdata (l : List Char) :
    stripKeyword? "[CDATA[" ("[CDATA[".toList ++ l) = some l := rfl

theorem readMarkup_cdata {content : String} (h : EndsAt "]]>" content) (r : List Char) :
    readMarkup ("![CDATA[".toList ++ content.toList ++ "]]>".toList ++ r) =
      .ok (.cdata content, r) := by
  have none : Text.stripPrefixChars? "--".toList
      ("[CDATA[".toList ++ (content.toList ++ "]]>".toList ++ r)) = none := rfl
  rw [show "![CDATA[".toList = '!' :: "[CDATA[".toList from rfl, List.append_assoc,
    List.append_assoc, List.cons_append, ← List.append_assoc content.toList]
  simp only [readMarkup, readBang?, none, stripKeyword?_cdata, h.append (by decide),
    String.ofList_toList]

/-- The content of a declaration that is read as one. -/
structure DeclarationReads (content : String) : Prop where
  ends : '>' ∉ content.toList
  reads : instruction? (content.toList ++ ['?']) = some (.declaration content)

theorem readMarkup_declaration {content : String} (h : DeclarationReads content) (r : List Char) :
    readMarkup ('?' :: content.toList ++ "?>".toList ++ r) = .ok (.declaration content, r) := by
  have hg : '>' ∉ content.toList ++ ['?'] := by
    rw [List.mem_append, not_or]
    exact ⟨h.ends, by decide⟩
  have cut := cut_gt hg r
  rw [show '?' :: content.toList ++ "?>".toList ++ r = '?' :: (content.toList ++ ['?'] ++ '>' :: r) by
    simp [show "?>".toList = ['?', '>'] from rfl]]
  simp only [readMarkup, cut.1, cut.2, h.reads]

end MapGate.Xml
