import MapGate.Capabilities.Links
import Mathlib.Data.List.TakeWhile

/-!
# What surrounds a link

The pieces of a document are its characters, and its links stand after the openings and end
where a link cannot be continued (`cut_piecesFrom`). Each link is the address of a web server
with a `MAP` parameter, of characters that a link can have (`isLink_of_mem_links`).
-/

namespace MapGate.Capabilities

/-- Characters that are a link wherever one is announced. -/
structure IsLink (l : List Char) : Prop where
  map : isMapLink l = true
  chars : ∀ c ∈ l, isLinkChar c = true

/-- Characters that do not continue a link. -/
def EndsLink (l : List Char) : Prop := ∀ c ∈ l.head?, isLinkChar c = false

/-- Characters in whose end no link starts: none of those after the last that is in no link is
the first of a link. -/
def StartsLink (l : List Char) : Prop :=
  ∃ front c back, l = front ++ c :: back ∧ isLinkChar c = false ∧ 'h' ∉ back

/-- The pieces that the characters of a document are cut into. -/
inductive Cut : List Char → List Piece → Prop where
  | nil : Cut [] []
  | text {l : List Char} {ps : List Piece} (c : Char) (rest : Cut l ps) :
      Cut (c :: l) (.text [c] :: ps)
  | link {opening link l : List Char} {ps : List Piece} (announced : opening ∈ openings)
      (found : IsLink link) (ends : EndsLink l) (rest : Cut l ps) :
      Cut (opening ++ link ++ l) (.text opening :: .link link :: ps)

theorem exists_cons_of_mem_openings {opening : List Char} (h : opening ∈ openings) :
    ∃ c rest, opening = c :: rest := by
  have nonempty : ∀ opening ∈ openings, opening ≠ [] := by decide
  exact List.exists_cons_of_ne_nil (nonempty opening h)

theorem startsLink_of_mem_openings {opening : List Char} (h : opening ∈ openings) :
    StartsLink opening := by
  simp only [openings, List.mem_cons, List.not_mem_nil, or_false] at h
  rcases h with rfl | rfl | rfl
  · exact ⟨"xlink:href=".toList, '"', [], rfl, rfl, List.not_mem_nil⟩
  · exact ⟨"onlineResource=".toList, '"', [], rfl, rfl, List.not_mem_nil⟩
  · exact ⟨[], '<', "OnlineResource>".toList, rfl, rfl, by decide⟩

theorem StartsLink.append {l : List Char} (h : StartsLink l) (before : List Char) :
    StartsLink (before ++ l) := by
  obtain ⟨front, c, back, rfl, hc, hb⟩ := h
  exact ⟨before ++ front, c, back, (List.append_assoc ..).symm, hc, hb⟩

theorem endsLink_dropWhile (l : List Char) : EndsLink (l.dropWhile isLinkChar) := by
  intro c hc
  have first := List.head?_dropWhile_not isLinkChar l
  rwa [Option.mem_def.1 hc] at first

theorem exists_of_opened? {l opening link : List Char} (h : opened? l = some (opening, link)) :
    ∃ rest, l = opening ++ link ++ rest ∧ opening ∈ openings ∧ IsLink link ∧ EndsLink rest := by
  obtain ⟨mark, hm, h⟩ := List.exists_of_findSome?_eq_some h
  split at h
  · rename_i rest hr
    dsimp only at h
    split at h
    · rename_i isLink
      cases h
      refine ⟨_, ?_, hm, ⟨isLink, fun c => List.mem_takeWhile_imp⟩, endsLink_dropWhile rest⟩
      rw [Text.eq_append_of_stripPrefixChars? hr, List.append_assoc,
        List.takeWhile_append_dropWhile]
    · cases h
  · cases h

theorem piecesFrom_eq_drop (skip : Nat) (l : List Char) :
    piecesFrom skip l = piecesFrom 0 (l.drop skip) := by
  induction l generalizing skip with
  | nil => cases skip <;> rfl
  | cons c l ih =>
    cases skip with
    | zero => rfl
    | succ skip => exact ih skip

theorem cut_piecesFrom (l : List Char) : Cut l (piecesFrom 0 l) := by
  induction h : l.length using Nat.strongRecOn generalizing l with
  | ind n ih =>
    cases l with
    | nil => exact .nil
    | cons c l =>
      rw [piecesFrom]
      split
      · rename_i opening link ho
        obtain ⟨rest, text, announced, found, ends⟩ := exists_of_opened? ho
        obtain ⟨first, mark, rfl⟩ := exists_cons_of_mem_openings announced
        -- what is passed is the rest of the opening and the link
        have passed : l = mark ++ link ++ rest := (List.cons.inj text).2
        have left : l.drop (mark.length + link.length) = rest := by
          rw [passed, ← List.length_append, List.drop_left]
        have shorter : rest.length < n := by
          rw [← h, ← left, List.length_cons, List.length_drop]
          omega
        rw [text, piecesFrom_eq_drop, List.length_cons, Nat.add_right_comm, Nat.add_sub_cancel,
          left]
        exact .link announced found ends (ih _ shorter rest rfl)
      · exact .text c (ih _ (by simp [← h]) l rfl)

theorem Cut.flatMap_chars {l : List Char} {ps : List Piece} (h : Cut l ps) :
    ps.flatMap Piece.chars = l := by
  induction h with
  | nil => rfl
  | text c rest ih => rw [List.flatMap_cons, ih]; rfl
  | link announced found ends rest ih =>
    rw [List.flatMap_cons, List.flatMap_cons, ih, ← List.append_assoc]
    rfl

theorem Cut.isLink_of_mem {l link : List Char} {ps : List Piece} (h : Cut l ps)
    (hm : .link link ∈ ps) : IsLink link := by
  induction h with
  | nil => cases hm
  | text c rest ih =>
    rcases List.mem_cons.1 hm with e | hm
    · cases e
    · exact ih hm
  | link announced found ends rest ih =>
    rcases List.mem_cons.1 hm with e | hm
    · cases e
    rcases List.mem_cons.1 hm with e | hm
    · cases e
      exact found
    · exact ih hm

theorem isLink_of_mem_links {document link : String} (h : link ∈ links document) :
    IsLink link.toList := by
  obtain ⟨piece, hp, h⟩ := List.mem_filterMap.1 h
  cases piece with
  | text chars => cases h
  | link chars =>
    obtain rfl := Option.some.inj h
    rw [String.toList_ofList]
    exact (cut_piecesFrom document.toList).isLink_of_mem hp

/-! ## Links -/

/-- A link starts as the address of a web server does. -/
theorem exists_eq_append_of_isMapLink {l : List Char} (h : isMapLink l = true) :
    ∃ start ∈ ["http://".toList, "https://".toList], ∃ rest, l = start ++ rest := by
  obtain ⟨start, hs, h⟩ := List.any_eq_true.1 h
  split at h
  · rename_i rest hr
    exact ⟨start, hs, rest, Text.eq_append_of_stripPrefixChars? hr⟩
  · cases h

namespace IsLink

variable {l : List Char}

theorem exists_cons (h : IsLink l) : ∃ rest, l = 'h' :: rest := by
  obtain ⟨start, hs, rest, rfl⟩ := exists_eq_append_of_isMapLink h.map
  simp only [List.mem_cons, List.not_mem_nil, or_false] at hs
  rcases hs with rfl | rfl
  · exact ⟨"ttp://".toList ++ rest, rfl⟩
  · exact ⟨"ttps://".toList ++ rest, rfl⟩

theorem ne_nil (h : IsLink l) : l ≠ [] := by
  obtain ⟨rest, rfl⟩ := h.exists_cons
  exact List.cons_ne_nil _ _

theorem notMem {c : Char} (h : IsLink l) (hc : isLinkChar c = false) : c ∉ l := fun hm => by
  rw [h.chars c hm] at hc
  cases hc

end IsLink

end MapGate.Capabilities
