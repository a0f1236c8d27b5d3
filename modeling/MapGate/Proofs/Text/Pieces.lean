import Mathlib.Data.List.Basic
import Mathlib.Data.List.DropRight
import MapGate.Proofs.Text.Trimming
import MapGate.Text.List

/-!
# Lists cut and put together

Cutting a text at the separators that joined its parts gives the pieces of the
parts: for one character (`splitOn_intercalate_eq`) and for two different ones
(`splitCharsFrom_intercalate`), where it is the inverse of joining parts that do
not hold the separator (`splitCharsFrom_eq_iff`). A comma list therefore has the entries of its
parts (`entries_intercalate`), an entry is cut no further (`entries_of_mem_entries`),
and the names in a path are read back (`splitOn_slashes`).
-/

namespace MapGate.Text

/-- A list without the separator is one piece, and joined lists are cut where
they were joined. -/
theorem splitOn_intercalate_eq {sep : Char} {ls : List (List Char)} (h : ls ≠ []) :
    ([sep].intercalate ls).splitOn sep = ls.flatMap (·.splitOn sep) := by
  induction ls with
  | nil => exact absurd rfl h
  | cons l ls ih =>
    cases ls with
    | nil => simp
    | cons m ls =>
      rw [List.intercalate_cons_cons, List.append_assoc, List.singleton_append,
        List.splitOn_append_cons_self, ih (by simp)]
      rfl

/-- A piece holds characters of the list, and no separator. -/
theorem whole_of_mem_splitOnP {p : Char → Bool} {l piece : List Char}
    (h : piece ∈ l.splitOnP p) : ∀ c ∈ piece, p c = false ∧ c ∈ l := by
  induction l generalizing piece with
  | nil =>
    rw [List.splitOnP_nil, List.mem_singleton] at h
    rw [h]
    exact List.forall_mem_nil _
  | cons d l ih =>
    rw [List.splitOnP_cons_eq_if_modifyHead] at h
    split at h
    · rcases List.mem_cons.1 h with rfl | h
      · exact List.forall_mem_nil _
      · exact fun c hc => ⟨(ih h c hc).1, List.mem_cons_of_mem d (ih h c hc).2⟩
    · rename_i hd
      obtain ⟨first, rest, e⟩ := List.exists_cons_of_ne_nil (List.splitOnP_ne_nil p l)
      rw [e, List.modifyHead_cons] at h
      rcases List.mem_cons.1 h with rfl | h
      · have others : ∀ c ∈ first, p c = false ∧ c ∈ l := ih (by simp [e])
        have own : p d = false ∧ d ∈ d :: l := ⟨Bool.not_eq_true _ ▸ hd, List.mem_cons_self⟩
        exact List.forall_mem_cons.2 ⟨own, fun c hc =>
          ⟨(others c hc).1, List.mem_cons_of_mem d (others c hc).2⟩⟩
      · have others : ∀ c ∈ piece, p c = false ∧ c ∈ l := ih (by simp [e, h])
        exact fun c hc => ⟨(others c hc).1, List.mem_cons_of_mem d (others c hc).2⟩

theorem sep_notMem_of_mem_splitOn {sep : Char} {l piece : List Char}
    (h : piece ∈ l.splitOn sep) : sep ∉ piece := fun hs => by
  have whole := whole_of_mem_splitOnP (List.splitOn_eq_splitOnP (x := sep) ▸ h) sep hs
  simp at whole

theorem infix_of_mem_splitOn {sep : Char} {l piece : List Char} (h : piece ∈ l.splitOn sep) :
    piece <:+: l := by
  rw [show l = [sep].intercalate (l.splitOn sep) from (List.intercalate_splitOn sep).symm]
  generalize l.splitOn sep = pieces at h
  induction pieces with
  | nil => cases h
  | cons first rest ih =>
    cases rest with
    | nil => simp_all
    | cons second rest =>
      rw [List.intercalate_cons_cons]
      rcases List.mem_cons.1 h with rfl | h
      · exact ⟨[], [sep] ++ [sep].intercalate (second :: rest), by simp⟩
      · exact (ih h).trans (List.suffix_append _ _).isInfix

/-- What stands in front of the first and behind the last piece goes with that
piece. -/
theorem exists_splitOn_append {sep : Char} {l back : List Char} (hb : sep ∉ back) :
    ∃ pieces last, l.splitOn sep = pieces ++ [last] ∧
      (l ++ back).splitOn sep = pieces ++ [last ++ back] := by
  induction l with
  | nil => exact ⟨[], [], by simp, by simp [List.splitOn_eq_singleton hb]⟩
  | cons c l ih =>
    obtain ⟨pieces, last, h, h'⟩ := ih
    simp only [List.cons_append, List.splitOn_cons_eq_if_modifyHead, h, h']
    split
    · exact ⟨[] :: pieces, last, rfl, rfl⟩
    · cases pieces with
      | nil => exact ⟨[], c :: last, rfl, rfl⟩
      | cons first pieces => exact ⟨(c :: first) :: pieces, last, rfl, rfl⟩

/-- A list is cut at the first separator. -/
theorem splitFirst?_append {sep : Char} {l rest : List Char} (h : sep ∉ l) :
    splitFirst? sep (l ++ sep :: rest) = some (l, rest) := by
  have all : ∀ c ∈ l, decide (c ≠ sep) = true := fun c hc => by
    simpa using fun e : c = sep => h (e ▸ hc)
  rw [splitFirst?, List.dropWhile_append_of_pos all, List.takeWhile_append_of_pos all]
  simp

theorem splitFirst?_eq_none {sep : Char} {l : List Char} (h : sep ∉ l) :
    splitFirst? sep l = none := by
  have none : l.dropWhile (· ≠ sep) = [] :=
    List.dropWhile_eq_nil_iff.2 fun c hc => decide_eq_true fun e => h (e ▸ hc)
  rw [splitFirst?, none]

/-- What holds of the separator and of all pieces holds of the joined list. -/
theorem forall_mem_intercalate {p : Char → Prop} {sep : List Char} {ls : List (List Char)}
    (hs : ∀ c ∈ sep, p c) (hl : ∀ l ∈ ls, ∀ c ∈ l, p c) : ∀ c ∈ sep.intercalate ls, p c := by
  induction ls with
  | nil => exact fun c hc => nomatch hc
  | cons l ls ih =>
    have first := hl l List.mem_cons_self
    have others := ih fun m hm => hl m (List.mem_cons_of_mem l hm)
    cases ls with
    | nil => simpa using first
    | cons m ls =>
      intro c hc
      rw [List.intercalate_cons_cons, List.mem_append, List.mem_append] at hc
      rcases hc with (hc | hc) | hc
      · exact first c hc
      · exact hs c hc
      · exact others c hc

/-! ## Slashes -/

/-- Names are cut where they were joined. -/
theorem splitOn_slashes {names : List String} (hne : names ≠ [])
    (h : ∀ name ∈ names, '/' ∉ name.toList) : splitOn '/' ("/".intercalate names) = names := by
  have whole : (names.map String.toList).flatMap (·.splitOn '/') = names.map String.toList := by
    rw [← List.flatMap_singleton' (names.map String.toList), List.flatMap_assoc]
    refine List.flatMap_congr fun l hl => ?_
    obtain ⟨name, hn, rfl⟩ := List.mem_map.1 hl
    simp [List.splitOn_eq_singleton (h name hn)]
  rw [splitOn, String.toList_intercalate, show "/".toList = ['/'] from rfl,
    splitOn_intercalate_eq (by simpa using hne), whole]
  simp

theorem splitOn_append_slash (s t : String) :
    splitOn '/' (s ++ "/" ++ t) = splitOn '/' s ++ splitOn '/' t := by
  have chars : (s ++ "/" ++ t).toList = s.toList ++ '/' :: t.toList := by simp
  rw [splitOn, chars, List.splitOn_append_cons_self, List.map_append]
  rfl

/-- What is taken away from the end of a text is that character only, and all of it. -/
theorem exists_eq_withoutFinal_append (c : Char) (s : String) :
    (∃ n, s = withoutFinal c s ++ String.ofList (List.replicate n c)) ∧
      (withoutFinal c s).toList.getLast? ≠ some c := by
  have base : (withoutFinal c s).toList = s.toList.rdropWhile (· = c) := String.toList_ofList
  constructor
  · refine ⟨(s.toList.rtakeWhile (· = c)).length, ?_⟩
    have final : List.replicate (s.toList.rtakeWhile (· = c)).length c =
        s.toList.rtakeWhile (· = c) :=
      (List.eq_replicate_iff.2 ⟨rfl, fun d hd => by simpa using List.mem_rtakeWhile_imp hd⟩).symm
    rw [← String.toList_inj, String.toList_append, base, String.toList_ofList, final,
      List.rdropWhile_append_rtakeWhile]
  · rw [base]
    intro last
    obtain ⟨hne, e⟩ := List.mem_getLast?_eq_getLast last
    exact List.rdropWhile_last_not _ _ hne (by simpa using e.symm)

/-! ## Entries of a comma list -/

theorem entries_eq (s : String) : entries s =
    ((s.toList.splitOn ',').map fun piece => String.ofList (trimChars piece)).filter (· ≠ "") := by
  simp only [entries, splitOn, List.map_map]
  congr 2
  funext piece
  simp [trim]

/-- The entries of joined texts are those of the texts. -/
theorem entries_intercalate {l : List String} (h : l ≠ []) :
    entries (",".intercalate l) = l.flatMap entries := by
  rw [entries_eq, String.toList_intercalate, show ",".toList = [','] from rfl,
    splitOn_intercalate_eq (by simpa using h)]
  simp only [List.flatMap_map, List.map_flatMap, List.filter_flatMap]
  exact congrArg (List.flatMap · l) (funext fun t => (entries_eq t).symm)

theorem comma_notMem_of_blank {l : List Char} (h : ∀ c ∈ l, isBlank c) : ',' ∉ l :=
  fun hc => absurd (h ',' hc) (by decide)

/-- Blanks in front of a list belong to its first entry. -/
theorem entries_append_of_blank {front : List Char} (hf : ∀ c ∈ front, isBlank c) (l : List Char) :
    entries (String.ofList (front ++ l)) = entries (String.ofList l) := by
  simp only [entries_eq, String.toList_ofList]
  induction front with
  | nil => rfl
  | cons c front ih =>
    have hc : (c == ',') = false := beq_eq_false_iff_ne.2 fun e =>
      comma_notMem_of_blank hf (e ▸ List.mem_cons_self)
    rw [← ih fun d hd => hf d (List.mem_cons_of_mem _ hd), List.cons_append,
      List.splitOn_cons_eq_if_modifyHead, hc, if_neg Bool.false_ne_true]
    obtain ⟨first, rest, e⟩ := List.exists_cons_of_ne_nil (List.splitOn_ne_nil ',' (front ++ l))
    have same : trimChars (c :: first) = trimChars first := by
      have blank : ∀ d ∈ [c], isBlank d := by simpa using hf c List.mem_cons_self
      simpa using trimChars_append_append blank (List.forall_mem_nil _) first
    rw [e, List.modifyHead_cons, List.map_cons, List.map_cons, same]

/-- Blanks behind a list belong to its last entry. -/
theorem entries_append_blank {back : List Char} (hb : ∀ c ∈ back, isBlank c) (l : List Char) :
    entries (String.ofList (l ++ back)) = entries (String.ofList l) := by
  obtain ⟨pieces, last, h, h'⟩ := exists_splitOn_append (l := l) (comma_notMem_of_blank hb)
  have same : trimChars (last ++ back) = trimChars last := by
    simpa using trimChars_append_append (List.forall_mem_nil _) hb last
  simp only [entries_eq, String.toList_ofList, h, h', List.map_append, List.map_cons, same]

/-- Blanks at the ends of a list do not count. -/
theorem entries_trimChars (l : List Char) :
    entries (String.ofList (trimChars l)) = entries (String.ofList l) := by
  obtain ⟨front, back, e, hf, hb⟩ := exists_eq_append_trimChars l
  rw [e, entries_append_blank hb, entries_append_of_blank hf, ← e]

/-- An entry is trimmed, not blank, and a part of the list without commas. -/
theorem of_mem_entries {s e : String} (h : e ∈ entries s) :
    trim e = e ∧ e ≠ "" ∧ ',' ∉ e.toList ∧ e.toList <:+: s.toList := by
  rw [entries_eq, List.mem_filter, List.mem_map] at h
  obtain ⟨⟨piece, hp, rfl⟩, hne⟩ := h
  refine ⟨trim_ofList_trimChars piece, by simpa using hne, fun hc => ?_, ?_⟩
  · rw [String.toList_ofList] at hc
    exact sep_notMem_of_mem_splitOn hp (mem_of_mem_trimChars hc)
  · rw [String.toList_ofList]
    exact (trimChars_isInfix piece).trans (infix_of_mem_splitOn hp)

/-- A trimmed text that is not blank and has no comma is its own only entry. -/
theorem entries_eq_singleton {e : String} (ht : trim e = e) (hne : e ≠ "")
    (hc : ',' ∉ e.toList) : entries e = [e] := by
  rw [entries_eq, List.splitOn_eq_singleton hc]
  simp [trimChars_toList ht, hne]

theorem entries_of_mem_entries {s e : String} (h : e ∈ entries s) : entries e = [e] :=
  have h := of_mem_entries h
  entries_eq_singleton h.1 h.2.1 h.2.2.1

/-- A list of entries has these as its entries. -/
theorem flatMap_entries_eq_self {l : List String} (h : ∀ e ∈ l, entries e = [e]) :
    l.flatMap entries = l := by
  induction l with
  | nil => rfl
  | cons e l ih =>
    rw [List.flatMap_cons, h e List.mem_cons_self, ih fun e he => h e (List.mem_cons_of_mem _ he)]
    rfl

/-- Blanks around a list do not count. -/
theorem entries_trim (s : String) : entries (trim s) = entries s := by
  rw [trim, entries_trimChars, String.ofList_toList]

/-- Each text of a list is one entry of it exactly if none is blank and none holds a
comma. -/
theorem flatMap_entries_eq_map_trim_iff {l : List String} :
    l.flatMap entries = l.map trim ↔ ∀ s ∈ l, ',' ∉ s.toList ∧ trim s ≠ "" := by
  constructor
  · intro h s hs
    have mem : trim s ∈ l.flatMap entries := h ▸ List.mem_map_of_mem hs
    obtain ⟨t, -, ht⟩ := List.mem_flatMap.1 mem
    obtain ⟨-, hne, hc, -⟩ := of_mem_entries ht
    refine ⟨fun hm => ?_, hne⟩
    obtain ⟨front, back, e, hf, hb⟩ := exists_eq_append_trimChars s.toList
    rw [e, List.mem_append, List.mem_append] at hm
    rcases hm with (hm | hm) | hm
    · exact comma_notMem_of_blank hf hm
    · exact hc (by rwa [toList_trim])
    · exact comma_notMem_of_blank hb hm
  · intro h
    rw [List.map_eq_flatMap]
    refine List.flatMap_congr fun s hs => ?_
    obtain ⟨hc, hne⟩ := h s hs
    rw [← entries_trim, entries_eq_singleton (trim_trim s) hne fun hm => hc ?_]
    rw [toList_trim] at hm
    exact mem_of_mem_trimChars hm

/-! ## Separators of two characters -/

section Pair

variable {a b : Char}

theorem splitCharsFrom_cons (sep : List Char) (piece : List Char) (c : Char) (cs : List Char) :
    splitCharsFrom sep 0 piece (c :: cs) =
      if sep.isPrefixOf (c :: cs) then piece.reverse :: splitCharsFrom sep (sep.length - 1) [] cs
      else splitCharsFrom sep 0 (c :: piece) cs := by
  rw [splitCharsFrom]

theorem isPrefixOf_pair {c : Char} {cs : List Char} :
    [a, b].isPrefixOf (c :: cs) = true ↔ a = c ∧ cs.head? = some b := by
  cases cs <;> simp [List.isPrefixOf, @eq_comm _ b]

theorem splitCharsFrom_ne_nil (sep : List Char) (skip : Nat) (piece l : List Char) :
    splitCharsFrom sep skip piece l ≠ [] := by
  induction l generalizing skip piece with
  | nil => cases skip <;> simp [splitCharsFrom]
  | cons c cs ih =>
    cases skip with
    | zero => rw [splitCharsFrom_cons]; split <;> simp [ih]
    | succ skip => rw [splitCharsFrom]; exact ih skip piece

theorem splitCharsFrom_pair (piece r : List Char) :
    splitCharsFrom [a, b] 0 piece (a :: b :: r) = piece.reverse :: splitCharsFrom [a, b] 0 [] r := by
  rw [splitCharsFrom_cons, if_pos (by simp [List.isPrefixOf])]
  rfl

/-- An occurrence of the separator ends a piece, whatever stands before it:
since its characters differ, no other occurrence overlaps it. -/
theorem splitCharsFrom_append (hab : a ≠ b) (r : List Char) : ∀ piece l : List Char,
    splitCharsFrom [a, b] 0 piece (l ++ a :: b :: r) =
      splitCharsFrom [a, b] 0 piece l ++ splitCharsFrom [a, b] 0 [] r
  | piece, [] => splitCharsFrom_pair piece r
  | piece, [c] => by
    have h : ¬ [a, b].isPrefixOf [c] = true := by rw [isPrefixOf_pair]; simp
    have h' : ¬ [a, b].isPrefixOf (c :: a :: b :: r) = true := by rw [isPrefixOf_pair]; simp [hab]
    rw [List.singleton_append, splitCharsFrom_cons, if_neg h', splitCharsFrom_cons _ piece, if_neg h]
    exact splitCharsFrom_append hab r (c :: piece) []
  | piece, c :: d :: l => by
    rw [List.cons_append, splitCharsFrom_cons, splitCharsFrom_cons _ piece c (d :: l)]
    by_cases h : [a, b].isPrefixOf (c :: d :: l) = true
    · have h' : [a, b].isPrefixOf (c :: (d :: l ++ a :: b :: r)) = true := by
        rw [isPrefixOf_pair] at h ⊢; exact h
      rw [if_pos h, if_pos h']
      exact congrArg _ (splitCharsFrom_append hab r [] l)
    · have h' : ¬ [a, b].isPrefixOf (c :: (d :: l ++ a :: b :: r)) = true := by
        rw [isPrefixOf_pair] at h ⊢; exact h
      rw [if_neg h, if_neg h']
      exact splitCharsFrom_append hab r (c :: piece) (d :: l)

/-- A list without the separator is one piece. -/
theorem splitCharsFrom_eq_singleton {l : List Char} (piece : List Char) (h : ¬ [a, b] <:+: l) :
    splitCharsFrom [a, b] 0 piece l = [piece.reverse ++ l] := by
  induction l generalizing piece with
  | nil => simp [splitCharsFrom]
  | cons c cs ih =>
    have hp : ¬ [a, b].isPrefixOf (c :: cs) = true := fun hp =>
      h (List.isPrefixOf_iff_prefix.1 hp).isInfix
    rw [splitCharsFrom_cons, if_neg hp, ih _ fun hi => h (hi.trans (List.suffix_cons c cs).isInfix)]
    simp

theorem splitCharsFrom_intercalate (hab : a ≠ b) {ls : List (List Char)} (h : ls ≠ []) :
    splitCharsFrom [a, b] 0 [] ([a, b].intercalate ls) =
      ls.flatMap (splitCharsFrom [a, b] 0 []) := by
  induction ls with
  | nil => exact absurd rfl h
  | cons l ls ih =>
    cases ls with
    | nil => simp
    | cons m ls =>
      rw [List.intercalate_cons_cons, List.append_assoc, List.flatMap_cons, ← ih (by simp)]
      exact splitCharsFrom_append hab _ [] l

/-- A separator of other characters does not take part in this one. -/
theorem infix_append_cons {c : Char} (ha : c ≠ a) (hb : c ≠ b) {l r : List Char} :
    [a, b] <:+: l ++ c :: r ↔ [a, b] <:+: l ∨ [a, b] <:+: r := by
  induction l with
  | nil => simp [List.infix_cons_iff, ha.symm]
  | cons d l ih =>
    rw [List.cons_append, List.infix_cons_iff, ih, List.infix_cons_iff, or_assoc]
    refine or_congr_left ?_
    cases l <;> simp [hb.symm]

theorem infix_intercalate {c : Char} (ha : c ≠ a) (hb : c ≠ b) {ls : List (List Char)} :
    [a, b] <:+: [c].intercalate ls ↔ ∃ l ∈ ls, [a, b] <:+: l := by
  induction ls with
  | nil => simp
  | cons l ls ih =>
    cases ls with
    | nil => simp
    | cons m ls =>
      rw [List.intercalate_cons_cons, List.append_assoc, List.singleton_append,
        infix_append_cons ha hb, ih]
      simp

/-- A list with the separator in it is more than one piece. -/
theorem one_lt_length_splitCharsFrom (hab : a ≠ b) {l : List Char} (h : [a, b] <:+: l) :
    1 < (splitCharsFrom [a, b] 0 [] l).length := by
  obtain ⟨s, t, rfl⟩ := h
  rw [List.append_assoc, List.cons_append, List.cons_append, List.nil_append,
    splitCharsFrom_append hab, List.length_append]
  have h₁ := List.length_pos_iff.2 (splitCharsFrom_ne_nil [a, b] 0 [] s)
  have h₂ := List.length_pos_iff.2 (splitCharsFrom_ne_nil [a, b] 0 [] t)
  omega

/-- A piece without the separator stays so with one more character, unless it
ends in the first character of the separator and gets the second. -/
theorem not_infix_concat {piece : List Char} {c : Char} (hp : ¬ [a, b] <:+: piece.reverse)
    (hn : piece.head? = some a → c ≠ b) : ¬ [a, b] <:+: (c :: piece).reverse := by
  rw [List.reverse_cons, List.infix_concat_iff]
  intro h
  rcases h with ⟨t, ht⟩ | hi
  · have e := List.append_inj' (show (t ++ [a]) ++ [b] = piece.reverse ++ [c] by simpa using ht) rfl
    refine hn ?_ (by simpa using e.2.symm)
    rw [← List.getLast?_reverse, ← e.1]; simp
  · exact hp hi

/-- No piece holds the separator: the piece so far does not, and does not end
in the first character of the separator where the second comes next. -/
theorem not_infix_of_mem_splitCharsFrom {p : List Char} : ∀ piece l : List Char,
    ¬ [a, b] <:+: piece.reverse → (piece.head? = some a → l.head? ≠ some b) →
    p ∈ splitCharsFrom [a, b] 0 piece l → ¬ [a, b] <:+: p
  | piece, [], hp, _, h => by simp_all [splitCharsFrom]
  | piece, [c], hp, hn, h => by
    have hc : ¬ [a, b].isPrefixOf [c] = true := by rw [isPrefixOf_pair]; simp
    rw [splitCharsFrom_cons, if_neg hc, splitCharsFrom, List.mem_singleton] at h
    exact h ▸ not_infix_concat hp fun e => by simpa using hn e
  | piece, c :: d :: l, hp, hn, h => by
    rw [splitCharsFrom_cons] at h
    split at h
    · rcases List.mem_cons.1 h with rfl | h
      · exact hp
      · exact not_infix_of_mem_splitCharsFrom [] l (by simp) (by simp) h
    · rename_i hc
      refine not_infix_of_mem_splitCharsFrom (c :: piece) (d :: l)
        (not_infix_concat hp fun e => by simpa using hn e) (fun e h' => hc ?_) h
      exact isPrefixOf_pair.2 ⟨by simpa [eq_comm] using e, h'⟩

/-- The pieces with the separator between them are what was cut. -/
theorem intercalate_splitCharsFrom : ∀ piece l : List Char,
    [a, b].intercalate (splitCharsFrom [a, b] 0 piece l) = piece.reverse ++ l
  | piece, [] => by simp [splitCharsFrom]
  | piece, [c] => by
    have h : ¬ [a, b].isPrefixOf [c] = true := by rw [isPrefixOf_pair]; simp
    rw [splitCharsFrom_cons, if_neg h, intercalate_splitCharsFrom (c :: piece) []]
    simp
  | piece, c :: d :: l => by
    rw [splitCharsFrom_cons]
    by_cases h : [a, b].isPrefixOf (c :: d :: l) = true
    · obtain ⟨rfl, hd⟩ := isPrefixOf_pair.1 h
      obtain rfl : b = d := (Option.some.inj hd).symm
      rw [if_pos h, List.intercalate_cons_of_ne_nil (splitCharsFrom_ne_nil _ _ _ _)]
      show _ ++ [a, b].intercalate (splitCharsFrom [a, b] 0 [] l) = _
      rw [intercalate_splitCharsFrom [] l]
      simp
    · rw [if_neg h, intercalate_splitCharsFrom (c :: piece) (d :: l)]
      simp

/-- Cutting is the inverse of joining pieces that do not hold the separator. -/
theorem splitCharsFrom_eq_iff (hab : a ≠ b) {l : List Char} {pieces : List (List Char)} :
    splitCharsFrom [a, b] 0 [] l = pieces ↔
      pieces ≠ [] ∧ l = [a, b].intercalate pieces ∧ ∀ piece ∈ pieces, ¬ [a, b] <:+: piece := by
  constructor
  · intro h
    obtain rfl := h
    exact ⟨splitCharsFrom_ne_nil _ _ _ _, by simp [intercalate_splitCharsFrom], fun piece hp =>
      not_infix_of_mem_splitCharsFrom [] l (by simp) (by simp) hp⟩
  · intro h
    obtain ⟨hne, rfl, hp⟩ := h
    have single : pieces.flatMap (splitCharsFrom [a, b] 0 []) = pieces.flatMap fun piece => [piece] :=
      List.flatMap_congr fun piece hm => splitCharsFrom_eq_singleton [] (hp piece hm)
    rw [splitCharsFrom_intercalate hab hne, single, List.flatMap_singleton']

end Pair

end MapGate.Text
