import MapGate.Proofs.Capabilities.Links
import MapGate.Proofs.Text.Replacing
import Mathlib.Data.List.Chain

/-!
# A document between its links

`segments` cuts a document into its links and the whole texts between them. A text in front of
a link ends with what announces a link, and a text after a link starts with a quotation mark or
a tag (`isChain_segments`). So no occurrence of a link crosses from one segment into the next:
replacing one in a document replaces it in each segment by itself (`replaceChars_flatMap`), and
the segments that this leaves are divided in the same way (`isChain_map_replaceChars`).
-/

namespace MapGate.Capabilities

/-- Pieces with neighbouring texts put together; `before` stands in front of them. -/
def joined : (before : List Char) → List Piece → List Piece
  | before, [] => [.text before]
  | before, .text chars :: rest => joined (before ++ chars) rest
  | before, .link chars :: rest => .text before :: .link chars :: joined [] rest

/-- The links of a document and the texts before, between and after them. -/
def segments (document : String) : List Piece := joined [] (pieces document)

theorem flatMap_chars_joined (before : List Char) (ps : List Piece) :
    (joined before ps).flatMap Piece.chars = before ++ ps.flatMap Piece.chars := by
  induction ps generalizing before with
  | nil => rfl
  | cons p ps ih =>
    cases p with
    | text chars => rw [joined, ih, List.flatMap_cons, List.append_assoc]; rfl
    | link chars => rw [joined, List.flatMap_cons, List.flatMap_cons, ih]; rfl

theorem filterMap_link?_joined (before : List Char) (ps : List Piece) :
    (joined before ps).filterMap Piece.link? = ps.filterMap Piece.link? := by
  induction ps generalizing before with
  | nil => rfl
  | cons p ps ih =>
    cases p with
    | text chars => exact ih (before ++ chars)
    | link chars => exact congrArg (String.ofList chars :: ·) (ih [])

/-- The segments are the document. -/
theorem flatMap_chars_segments (document : String) :
    (segments document).flatMap Piece.chars = document.toList := by
  rw [segments, flatMap_chars_joined, List.nil_append]
  exact (cut_piecesFrom document.toList).flatMap_chars

/-- The segments that are links are the links of the document. -/
theorem filterMap_link?_segments (document : String) :
    (segments document).filterMap Piece.link? = links document :=
  filterMap_link?_joined [] (pieces document)

/-- Two pieces between which no link stands. -/
def Divided : Piece → Piece → Prop
  | .text l, .link _ => StartsLink l
  | .link _, .text l => EndsLink l
  | _, _ => False

/-- The first segment is a text, which starts as the document does after what was put in
front. -/
theorem Cut.isChain_joined {l : List Char} {ps : List Piece} (h : Cut l ps)
    (before : List Char) : (joined before ps).IsChain Divided ∧
      ∃ more others, joined before ps = .text (before ++ more) :: others ∧
        more.head? = l.head? := by
  induction h generalizing before with
  | nil => exact ⟨.singleton _, [], [], by rw [List.append_nil]; rfl, rfl⟩
  | text c rest ih =>
    obtain ⟨chain, more, others, e, -⟩ := ih (before ++ [c])
    exact ⟨chain, c :: more, others, by rw [joined, e, List.append_assoc]; rfl, rfl⟩
  | @link opening link l ps announced found ends rest ih =>
    obtain ⟨chain, more, others, e, same⟩ := ih []
    obtain ⟨first, mark, rfl⟩ := exists_cons_of_mem_openings announced
    have after : Divided (.link link) (.text more) := fun c hc => ends c (same ▸ hc)
    rw [List.nil_append] at e
    refine ⟨?_, first :: mark, .link link :: joined [] ps, rfl, rfl⟩
    rw [joined, joined]
    refine .cons_cons ((startsLink_of_mem_openings announced).append before) ?_
    rw [e] at chain ⊢
    exact .cons_cons after chain

/-- Only the last text can be empty. -/
theorem endsLink_flatMap {l : List Char} {ps : List Piece} (h : EndsLink l)
    (chain : (Piece.text l :: ps).IsChain Divided) :
    EndsLink ((Piece.text l :: ps).flatMap Piece.chars) := by
  cases l with
  | cons c l => exact h
  | nil =>
    cases ps with
    | nil => exact h
    | cons q ps =>
      have divided := (List.isChain_cons_cons.1 chain).1
      cases q with
      | text k => exact divided.elim
      | link k =>
        obtain ⟨front, c, back, e, -⟩ := divided
        cases front <;> cases e

theorem isChain_segments (document : String) : (segments document).IsChain Divided :=
  ((cut_piecesFrom document.toList).isChain_joined []).1

/-! ## Replacing in segments -/

/-- A piece with other characters. -/
def Piece.mapChars (f : List Char → List Char) : Piece → Piece
  | .text l => .text (f l)
  | .link l => .link (f l)

theorem Piece.chars_mapChars (f : List Char → List Char) (piece : Piece) :
    (piece.mapChars f).chars = f piece.chars := by
  cases piece <;> rfl

section Replacing

variable {old l : List Char} (ho : IsLink old) (new : List Char)
include ho

/-- No occurrence of a link goes on where a link cannot be continued. -/
theorem replaceChars_append_of_endsLink (h : EndsLink l) (front : List Char) :
    Text.replaceChars old new (front ++ l) =
      Text.replaceChars old new front ++ Text.replaceChars old new l := by
  cases l with
  | nil => rw [Text.replaceChars_nil, List.append_nil, List.append_nil]
  | cons c l =>
    have other := ho.notMem (h c rfl)
    rw [Text.replaceChars_append_cons ho.ne_nil other,
      Text.replaceChars_cons_of_notMem ho.ne_nil other]

theorem replaceChars_eq_self_of_notMem (h : 'h' ∉ l) : Text.replaceChars old new l = l := by
  obtain ⟨mark, rfl⟩ := ho.exists_cons
  exact Text.replaceChars_of_not_infix (fun part => h (part.subset List.mem_cons_self)) new

/-- No occurrence of a link starts in the end of a text after which a link stands. -/
theorem replaceChars_append_of_startsLink (h : StartsLink l) (back : List Char) :
    Text.replaceChars old new (l ++ back) =
      Text.replaceChars old new l ++ Text.replaceChars old new back := by
  obtain ⟨front, c, plain, rfl, hc, hp⟩ := h
  have apart := Text.replaceChars_append_cons ho.ne_nil (ho.notMem hc) new front
  have past : Text.replaceChars old new (plain ++ back) =
      plain ++ Text.replaceChars old new back := by
    obtain ⟨mark, rfl⟩ := ho.exists_cons
    exact Text.replaceChars_append_of_notMem hp new back
  rw [List.append_assoc, List.cons_append, apart, apart, past,
    replaceChars_eq_self_of_notMem ho new hp, List.append_assoc, List.cons_append]

theorem EndsLink.replaceChars (h : EndsLink l) : EndsLink (Text.replaceChars old new l) := by
  cases l with
  | nil => exact h
  | cons c l => rwa [Text.replaceChars_cons_of_notMem ho.ne_nil (ho.notMem (h c rfl))]

theorem StartsLink.replaceChars (h : StartsLink l) :
    StartsLink (Text.replaceChars old new l) := by
  obtain ⟨front, c, plain, rfl, hc, hp⟩ := h
  rw [Text.replaceChars_append_cons ho.ne_nil (ho.notMem hc),
    replaceChars_eq_self_of_notMem ho new hp]
  exact ⟨_, c, plain, rfl, hc, hp⟩

/-- What replacing leaves is divided as before. -/
theorem isChain_map_replaceChars {ps : List Piece} (h : ps.IsChain Divided) :
    (ps.map (Piece.mapChars (Text.replaceChars old new))).IsChain Divided := by
  refine List.isChain_map_of_isChain _ (fun p q divided => ?_) h
  cases p <;> cases q
  case text.link => exact StartsLink.replaceChars ho new divided
  case link.text => exact EndsLink.replaceChars ho new divided
  all_goals exact divided.elim

/-- A link is replaced in each of the pieces by itself. -/
theorem replaceChars_flatMap {ps : List Piece} (h : ps.IsChain Divided) :
    Text.replaceChars old new (ps.flatMap Piece.chars) =
      ps.flatMap fun piece => Text.replaceChars old new piece.chars := by
  induction h with
  | nil => rfl
  | singleton p => simp
  | @cons_cons p q ps divided chain ih =>
    refine Eq.trans ?_ (congrArg (Text.replaceChars old new p.chars ++ ·) ih)
    rw [List.flatMap_cons]
    cases p with
    | text l =>
      cases q with
      | text k => exact divided.elim
      | link k => exact replaceChars_append_of_startsLink ho new divided _
    | link l =>
      cases q with
      | link k => exact divided.elim
      | text k => exact replaceChars_append_of_endsLink ho new (endsLink_flatMap divided chain) l

end Replacing

end MapGate.Capabilities
