import MapGate.Capabilities.Rewriting
import MapGate.Proofs.Capabilities.ReplacementOrder
import MapGate.Proofs.Capabilities.Segments
import Mathlib.Data.List.Forall2

/-!
# Each link gets its own replacement

The links that change are replaced one after the other, each wherever it occurs. Where no
replacement brings in a link of the document, a link that changes is still there when its turn
comes, since those before it are at least as long (`pairwise_ordered`), and its replacement stays
(`applyChanges_link`). What is between the links, and a link that does not change, stays where
no link that changes is part of it (`substitute?_exact`). Nothing more is kept: a link
that stands for itself is changed through a shorter one that it starts with, and a text through
a link that the replacement of another one makes there (`clobbered_own_and_copy`).
-/

namespace MapGate.Capabilities

/-! ## Changes -/

variable {replacement? : String → Option String}

theorem mem_changes {ls : List String} {old new : String} :
    (old, new) ∈ changes replacement? ls ↔
      old ∈ ls ∧ replacement? old = some new ∧ new ≠ old := by
  rw [changes, List.mem_filterMap]
  constructor
  · rintro ⟨link, hl, h⟩
    split at h
    · rename_i new' hr
      split at h
      · cases h
      · rename_i other
        cases h
        exact ⟨hl, hr, other⟩
    · cases h
  · rintro ⟨hl, hr, other⟩
    exact ⟨old, hl, by simp only [hr, if_neg other]⟩

theorem applyChanges_cons (old new : String) (later : List (String × String)) (text : String) :
    applyChanges ((old, new) :: later) text = applyChanges later (Text.replace old new text) :=
  rfl

theorem replace_eq_self {old text : String} (h : ¬ old.toList <:+: text.toList) (new : String) :
    Text.replace old new text = text := by
  rw [← String.toList_inj, Text.toList_replace]
  exact Text.replaceChars_of_not_infix h new.toList

theorem applyChanges_eq_self {made : List (String × String)} {text : String}
    (h : ∀ change ∈ made, ¬ change.1.toList <:+: text.toList) : applyChanges made text = text := by
  induction made with
  | nil => rfl
  | cons change later ih =>
    rw [applyChanges_cons, replace_eq_self (h change List.mem_cons_self)]
    exact ih fun other ho => h other (List.mem_cons_of_mem _ ho)

/-- A link that changes becomes its own replacement: those before it are not part of it, since
they are other links and at least as long, and those after it are not part of its replacement. -/
theorem applyChanges_link {ls : List String} {link new : String} (hl : link ∈ ls)
    (hn : link.toList ≠ []) (hr : replacement? link = some new) (other : new ≠ link)
    (clear : ∀ old ∈ ls, ¬ old.toList <:+: new.toList) :
    applyChanges (changes replacement? (ordered ls)) link = new := by
  obtain ⟨before, after, e, first⟩ := List.eq_append_cons_of_mem (mem_ordered.2 hl)
  have longer : ∀ old ∈ before, link.utf8ByteSize ≤ old.utf8ByteSize := fun old ho => by
    have order := pairwise_ordered ls
    rw [e, List.pairwise_append] at order
    exact order.2.2 old ho link List.mem_cons_self
  have known : ∀ old ∈ after, old ∈ ls := fun old ho =>
    mem_ordered.1 (e ▸ List.mem_append_right _ (List.mem_cons_of_mem _ ho))
  have parts : changes replacement? (ordered ls) =
      changes replacement? before ++ (link, new) :: changes replacement? after := by
    rw [e, changes, List.filterMap_append, List.filterMap_cons]
    simp only [hr, if_neg other]
    rfl
  have waits : applyChanges (changes replacement? before) link = link :=
    applyChanges_eq_self fun change hc part => by
      have hb := (mem_changes.1 hc).1
      exact first (eq_of_infix_of_size_le part (longer _ hb) ▸ hb)
  have turn : Text.replace link new link = new := by
    rw [← String.toList_inj, Text.toList_replace]
    exact Text.replaceChars_self hn new.toList
  have stays : applyChanges (changes replacement? after) new = new :=
    applyChanges_eq_self fun change hc => clear _ (known _ (mem_changes.1 hc).1)
  rw [parts, applyChanges, List.foldl_append]
  change applyChanges ((link, new) :: _) (applyChanges (changes replacement? before) link) = new
  rw [waits, applyChanges_cons, turn, stays]

/-! ## The whole document -/

/-- The changes are made in each of the pieces by itself. -/
theorem toList_applyChanges {made : List (String × String)}
    (links : ∀ change ∈ made, IsLink change.1.toList) {ps : List Piece}
    (chain : ps.IsChain Divided) {text : String} (whole : ps.flatMap Piece.chars = text.toList) :
    (applyChanges made text).toList =
      ps.flatMap fun piece => (applyChanges made (String.ofList piece.chars)).toList := by
  induction made generalizing ps text with
  | nil => simp [applyChanges, ← whole]
  | cons change later ih =>
    obtain ⟨old, new⟩ := change
    have isLink := links (old, new) List.mem_cons_self
    have parts : (ps.map (Piece.mapChars (Text.replaceChars old.toList new.toList))).flatMap
        Piece.chars = (Text.replace old new text).toList := by
      rw [Text.toList_replace, ← whole, List.flatMap_map]
      simp only [Piece.chars_mapChars]
      exact (replaceChars_flatMap isLink new.toList chain).symm
    have one (piece : Piece) : String.ofList (Text.replaceChars old.toList new.toList piece.chars) =
        Text.replace old new (String.ofList piece.chars) := by
      rw [← String.toList_inj, Text.toList_replace, String.toList_ofList, String.toList_ofList]
    rw [applyChanges_cons, ih (fun c hc => links c (List.mem_cons_of_mem _ hc))
      (isChain_map_replaceChars isLink new.toList chain) parts, List.flatMap_map]
    simp only [Piece.chars_mapChars, one, applyChanges_cons]

/-- No link of the document is part of `text`. -/
def NoLinkIn (document text : String) : Prop :=
  ∀ link ∈ links document, ¬ link.toList <:+: text.toList

/-- Replacements that no link of the document is part of; but a link can be replaced by
itself. -/
def KeepClear (replacement? : String → Option String) (document : String) : Prop :=
  ∀ link ∈ links document, ∀ new, replacement? link = some new →
    new = link ∨ NoLinkIn document new

/-- Whether a link gets a replacement other than itself. -/
def IsChanged (replacement? : String → Option String) (link : String) : Prop :=
  ∃ new, replacement? link = some new ∧ new ≠ link

/-- What a segment of a document becomes. -/
structure Becomes (replacement? : String → Option String) (document : String) (piece : Piece)
    (part : String) : Prop where
  /-- A link that changes becomes its own replacement. -/
  own : ∀ link new, piece.link? = some link → replacement? link = some new → new ≠ link →
    part = new
  /-- What no link that changes is a part of stays. -/
  kept : (∀ link ∈ links document, IsChanged replacement? link → ¬ link.toList <:+: piece.chars) →
    part = String.ofList piece.chars
  /-- Whatever it becomes, the changes are made in it by itself. -/
  alone : part = applyChanges (changes replacement? (ordered (links document)))
    (String.ofList piece.chars)

theorem becomes_of_mem_segments {document : String} {piece : Piece}
    (clear : KeepClear replacement? document) (h : piece ∈ segments document) :
    Becomes replacement? document piece (applyChanges
      (changes replacement? (ordered (links document))) (String.ofList piece.chars)) where
  own := by
    intro link new hp hr other
    have hl : link ∈ links document := by
      rw [← filterMap_link?_segments]
      exact List.mem_filterMap.2 ⟨piece, h, hp⟩
    have text : String.ofList piece.chars = link := by
      cases piece with
      | text chars => cases hp
      | link chars => exact Option.some.inj hp
    rw [text]
    exact applyChanges_link hl (isLink_of_mem_links hl).ne_nil hr other
      ((clear link hl new hr).resolve_left other)
  kept := by
    intro noPart
    refine applyChanges_eq_self fun (old, new) hc => ?_
    obtain ⟨hl, hr, other⟩ := mem_changes.1 hc
    rw [String.toList_ofList]
    exact noPart old (mem_ordered.1 hl) ⟨new, hr, other⟩
  alone := rfl

theorem substitute?_eq_none_iff {document : String} : substitute? replacement? document = none ↔
    ∀ link ∈ links document, ∀ new, replacement? link = some new → new = link := by
  have none : substitute? replacement? document = none ↔
      changes replacement? (ordered (links document)) = [] := by
    simp [substitute?]
  rw [none, List.eq_nil_iff_forall_not_mem]
  constructor
  · intro h link hl new hr
    by_contra other
    exact h (link, new) (mem_changes.2 ⟨mem_ordered.2 hl, hr, other⟩)
  · rintro h ⟨link, new⟩ hc
    obtain ⟨hl, hr, other⟩ := mem_changes.1 hc
    exact other (h link (mem_ordered.1 hl) new hr)

/-- The segments of a document have their links replaced each by its own replacement, and stay
where no link that changes is part of them; nothing is made if no link changes. -/
theorem substitute?_exact {document : String} (clear : KeepClear replacement? document) :
    (substitute? replacement? document = none ↔
      ∀ link ∈ links document, ∀ new, replacement? link = some new → new = link) ∧
    ∀ result, substitute? replacement? document = some result →
      ∃ parts, String.join parts = result ∧
        List.Forall₂ (Becomes replacement? document) (segments document) parts := by
  refine ⟨substitute?_eq_none_iff, fun result h => ?_⟩
  have made : applyChanges (changes replacement? (ordered (links document))) document = result := by
    rw [substitute?] at h
    split at h
    · cases h
    · exact Option.some.inj h
  have isLink : ∀ change ∈ changes replacement? (ordered (links document)),
      IsLink change.1.toList := fun (old, new) hc =>
    isLink_of_mem_links (mem_ordered.1 (mem_changes.1 hc).1)
  refine ⟨(segments document).map fun piece => applyChanges
    (changes replacement? (ordered (links document))) (String.ofList piece.chars), ?_, ?_⟩
  · rw [← made, ← String.toList_inj, String.toList_join, List.flatMap_map,
      toList_applyChanges isLink (isChain_segments document) (flatMap_chars_segments document)]
  · exact List.forall₂_map_right_iff.2
      (List.forall₂_same.2 fun piece => becomes_of_mem_segments clear)

/-- A document with two links, of which the one that is replaced first stands first. -/
theorem substitute?_of_links {document first second : String}
    (found : links document = [first, second]) (order : replacedBefore first second = true)
    (apart : first ≠ second) : substitute? replacement? document =
      let made := changes replacement? [first, second]
      if made.isEmpty then none else some (applyChanges made document) := by
  rw [substitute?, found, ordered_pair order apart]

/-- A link, and one that its replacement makes together with what stands after a copy of it. -/
def copyDocument : String :=
  "<a xlink:href=\"http://renderer/ows?MAP=/srv/city.qgs&amp;x=1\"/>" ++
    "<a xlink:href=\"http://renderer/ows/a/b?x=1&amp;map=2\"/>" ++
      "<!-- http://renderer/ows?MAP=/srv/city.qgs&amp;x=1&amp;map=2 -->"

def copyResult : String :=
  "<a xlink:href=\"http://renderer/ows/a/b?x=1\"/>" ++
    "<a xlink:href=\"http://renderer/ows/a/b?x=1\"/>" ++ "<!-- http://renderer/ows/a/b?x=1 -->"

theorem links_copyDocument : links copyDocument =
    ["http://renderer/ows?MAP=/srv/city.qgs&amp;x=1", "http://renderer/ows/a/b?x=1&amp;map=2"] := by
  decide +kernel

theorem rewriteLink?_project : rewriteLink? none "/ows/a/b"
    "http://renderer/ows?MAP=/srv/city.qgs&amp;x=1" = some "http://renderer/ows/a/b?x=1" := by
  decide +kernel

theorem rewriteLink?_number : rewriteLink? none "/ows/a/b"
    "http://renderer/ows/a/b?x=1&amp;map=2" = some "http://renderer/ows/a/b?x=1" := by
  decide +kernel

theorem noLinkIn_copyDocument : ∀ link ∈ links copyDocument, ∀ new,
    rewriteLink? none "/ows/a/b" link = some new → NoLinkIn copyDocument new := by
  simp only [NoLinkIn, links_copyDocument, List.forall_mem_cons, rewriteLink?_project,
    rewriteLink?_number, Option.some.injEq, forall_eq']
  decide +kernel

theorem substitute?_copyDocument :
    substitute? (rewriteLink? none "/ows/a/b") copyDocument = some copyResult := by
  rw [substitute?_of_links links_copyDocument (by decide +kernel) (by decide +kernel)]
  simp only [changes, List.filterMap_cons, List.filterMap_nil, rewriteLink?_project,
    rewriteLink?_number]
  decide +kernel

theorem substitute?_exact_copy : KeepClear (rewriteLink? none "/ows/a/b") copyDocument ∧
    substitute? (rewriteLink? none "/ows/a/b") copyDocument = some copyResult ∧
      ∃ parts, String.join parts = copyResult ∧
        List.Forall₂ (Becomes (rewriteLink? none "/ows/a/b") copyDocument)
          (segments copyDocument) parts := by
  have clear : KeepClear (rewriteLink? none "/ows/a/b") copyDocument := fun link hl new hr =>
    .inr (noLinkIn_copyDocument link hl new hr)
  exact ⟨clear, substitute?_copyDocument,
    (substitute?_exact clear).2 copyResult substitute?_copyDocument⟩

/-! ## What is not kept -/

/-- A link that is replaced by itself. -/
def ownLink : String := "http://renderer&amp;map=1:8080/ows/a/b?"

/-- A document with this link, and another that it starts with. -/
def ownDocument : String :=
  "<a xlink:href=\"http://renderer&amp;map=1:8080/ows/a/b?\"/>" ++
    "<a xlink:href=\"http://renderer&amp;map=1:80\"/>"

def ownResult : String :=
  "<a xlink:href=\"http://renderer&amp;map=1/ows/a/b?80/ows/a/b?\"/>" ++
    "<a xlink:href=\"http://renderer&amp;map=1/ows/a/b?\"/>"

/-- No copy of a link of a document reaches into what follows `front`. -/
def NoLinkBeyond (document : String) (front : List Char) : Prop :=
  ∀ link ∈ links document, ∀ n < document.toList.length,
    link.toList <+: document.toList.drop n → n + link.toList.length ≤ front.length

/-- A link that is to be replaced by itself is there no more. And in the other document, what no
copy of a link reaches into is there no more, though no link is part of a replacement. -/
theorem clobbered_own_and_copy :
    (KeepClear (rewriteLink? none "/ows/a/b") ownDocument ∧ ownLink ∈ links ownDocument ∧
      rewriteLink? none "/ows/a/b" ownLink = some ownLink ∧
        rewrite? none "/ows/a/b" ownDocument = some ownResult ∧
          ¬ ownLink.toList <:+: ownResult.toList) ∧
    (∀ link ∈ links copyDocument, ∀ new, rewriteLink? none "/ows/a/b" link = some new →
      NoLinkIn copyDocument new) ∧
    ∃ front, copyDocument.toList = front ++ "&amp;map=2 -->".toList ∧
      NoLinkBeyond copyDocument front ∧
        rewrite? none "/ows/a/b" copyDocument = some copyResult ∧
          ¬ "&amp;map=2 -->".toList <:+: copyResult.toList := by
  constructor
  · have found : links ownDocument = [ownLink, "http://renderer&amp;map=1:80"] := by decide +kernel
    have own : rewriteLink? none "/ows/a/b" ownLink = some ownLink := by decide +kernel
    have other : rewriteLink? none "/ows/a/b" "http://renderer&amp;map=1:80" =
        some "http://renderer&amp;map=1/ows/a/b?" := by decide +kernel
    have made : rewrite? none "/ows/a/b" ownDocument = some ownResult := by
      rw [rewrite?, substitute?_of_links found (by decide +kernel) (by decide +kernel)]
      simp only [changes, List.filterMap_cons, List.filterMap_nil, own, other]
      decide +kernel
    refine ⟨?_, found ▸ List.mem_cons_self, own, made, by decide +kernel⟩
    simp only [KeepClear, NoLinkIn, found, List.forall_mem_cons, own, other, Option.some.injEq,
      forall_eq']
    decide +kernel
  · refine ⟨noLinkIn_copyDocument, copyDocument.toList.take 168, by decide +kernel, ?_,
      substitute?_copyDocument, by decide +kernel⟩
    rw [NoLinkBeyond, links_copyDocument]
    decide +kernel

end MapGate.Capabilities
