import MapGate.Proofs.Text.Pieces

/-!
# Replacing a mark and putting it back

A separator is found where its first character occurs, so pieces without that
character are cut where they were joined (`splitCharsFrom_intercalate_of_head`). A text in
which a character was replaced by a mark that starts with this character is therefore
restored when the mark is replaced by the character (`replace_replace`).

Read from the left, a character at which no occurrence starts stays (`replaceChars_cons`), and
an occurrence gives way to what replaces it (`replaceChars_append`). So a text without an
occurrence stays (`replaceChars_of_not_infix`), and replacing can be done part by part where no
occurrence crosses from one part into the next: at a character that is not in the text that is
replaced (`replaceChars_append_cons`), and after characters that cannot be its first one
(`replaceChars_append_of_notMem`).
-/

namespace MapGate.Text

section Head

variable {first : Char} {mark l : List Char}

/-- Characters other than the first one of the separator belong to the piece. -/
theorem splitCharsFrom_append_of_notMem (h : first ∉ l) (piece r : List Char) :
    splitCharsFrom (first :: mark) 0 piece (l ++ r) =
      splitCharsFrom (first :: mark) 0 (l.reverse ++ piece) r := by
  induction l generalizing piece with
  | nil => rfl
  | cons c l ih =>
    rw [List.mem_cons, not_or] at h
    have other : ¬ (first :: mark).isPrefixOf (c :: (l ++ r)) = true := by
      simp [List.isPrefixOf, h.1]
    rw [List.cons_append, splitCharsFrom_cons, if_neg other, ih h.2, List.reverse_cons,
      List.append_assoc, List.singleton_append]

theorem splitCharsFrom_length_append (sep passed r : List Char) :
    splitCharsFrom sep passed.length [] (passed ++ r) = splitCharsFrom sep 0 [] r := by
  induction passed with
  | nil => rfl
  | cons c passed ih => rw [List.length_cons, List.cons_append, splitCharsFrom, ih]

/-- Pieces without the first character of the separator are cut where they were joined. -/
theorem splitCharsFrom_intercalate_of_head {pieces : List (List Char)} (hne : pieces ≠ [])
    (h : ∀ piece ∈ pieces, first ∉ piece) :
    splitCharsFrom (first :: mark) 0 [] ((first :: mark).intercalate pieces) = pieces := by
  induction pieces with
  | nil => exact absurd rfl hne
  | cons piece pieces ih =>
    have alone := @splitCharsFrom_append_of_notMem first mark _ (h piece List.mem_cons_self) []
    cases pieces with
    | nil =>
      have cut := alone []
      rw [List.append_nil, List.append_nil, splitCharsFrom, List.reverse_reverse] at cut
      rw [List.intercalate_singleton, cut]
    | cons next pieces =>
      have rest := ih (by simp) fun p hp => h p (List.mem_cons_of_mem _ hp)
      have found : (first :: mark).isPrefixOf
          (first :: (mark ++ (first :: mark).intercalate (next :: pieces))) = true :=
        List.isPrefixOf_iff_prefix.2 (List.prefix_append (first :: mark) _)
      rw [List.intercalate_cons_cons, List.append_assoc, alone, List.cons_append,
        splitCharsFrom_cons, if_pos found, List.length_cons, Nat.add_sub_cancel,
        splitCharsFrom_length_append, rest, List.append_nil, List.reverse_reverse]

/-- Cutting at a single character is cutting at the text of that character. -/
theorem splitCharsFrom_singleton (c : Char) (l : List Char) :
    splitCharsFrom [c] 0 [] l = l.splitOn c := by
  have cut := @splitCharsFrom_intercalate_of_head c [] _ (List.splitOn_ne_nil c l)
    fun _ => sep_notMem_of_mem_splitOn
  rwa [List.intercalate_splitOn] at cut

end Head

/-! ## Replacing -/

section Replacing

variable {old l : List Char}

/-- `l` with every occurrence of `old`, found from the left without overlap, replaced by
`new`. -/
def replaceChars (old new l : List Char) : List Char :=
  new.intercalate (splitCharsFrom old 0 [] l)

theorem toList_replace (old new s : String) :
    (replace old new s).toList = replaceChars old.toList new.toList s.toList := by
  have chars : String.toList ∘ String.ofList = id := funext fun _ => String.toList_ofList
  rw [replace, String.toList_intercalate, splitOnText, List.map_map, chars, List.map_id,
    replaceChars]

/-- A character that was replaced by a mark is put back when the mark is replaced by it. -/
theorem replace_replace {c : Char} {mark : List Char} {old new : String} (ho : old.toList = [c])
    (hn : new.toList = c :: mark) (s : String) : replace new old (replace old new s) = s := by
  refine String.toList_inj.1 ?_
  rw [toList_replace, toList_replace, ho, hn, replaceChars, replaceChars, splitCharsFrom_singleton,
    splitCharsFrom_intercalate_of_head (List.splitOn_ne_nil c s.toList)
      fun _ => sep_notMem_of_mem_splitOn, List.intercalate_splitOn]

/-! ## Occurrences -/

/-- A piece that was begun is put in front of the first piece. -/
theorem splitCharsFrom_begun (sep piece l : List Char) (skip : Nat) :
    splitCharsFrom sep skip piece l =
      (splitCharsFrom sep skip [] l).modifyHead (piece.reverse ++ ·) := by
  induction l generalizing skip piece with
  | nil => cases skip <;> simp [splitCharsFrom]
  | cons c l ih =>
    cases skip with
    | succ skip => exact ih piece skip
    | zero =>
      rw [splitCharsFrom_cons, splitCharsFrom_cons]
      split
      · simp
      · rw [ih (c :: piece) 0, ih [c] 0, List.modifyHead_modifyHead]
        simp [Function.comp_def]

theorem replaceChars_nil (old new : List Char) : replaceChars old new [] = [] := rfl

/-- A character at which no occurrence starts stays. -/
theorem replaceChars_cons {c : Char} (h : ¬ old <+: c :: l) (new : List Char) :
    replaceChars old new (c :: l) = c :: replaceChars old new l := by
  have other : ¬ old.isPrefixOf (c :: l) = true := fun p => h (List.isPrefixOf_iff_prefix.1 p)
  obtain ⟨piece, others, e⟩ := List.exists_cons_of_ne_nil (splitCharsFrom_ne_nil old 0 [] l)
  rw [replaceChars, splitCharsFrom_cons, if_neg other, splitCharsFrom_begun, replaceChars, e]
  cases others <;> simp

/-- An occurrence gives way to what replaces it. -/
theorem replaceChars_append (h : old ≠ []) (new l : List Char) :
    replaceChars old new (old ++ l) = new ++ replaceChars old new l := by
  obtain ⟨first, mark, rfl⟩ := List.exists_cons_of_ne_nil h
  have found : (first :: mark).isPrefixOf (first :: (mark ++ l)) = true :=
    List.isPrefixOf_iff_prefix.2 (List.prefix_append (first :: mark) l)
  rw [replaceChars, List.cons_append, splitCharsFrom_cons, if_pos found, List.length_cons,
    Nat.add_sub_cancel, splitCharsFrom_length_append,
    List.intercalate_cons_of_ne_nil (splitCharsFrom_ne_nil _ _ _ _)]
  rfl

theorem replaceChars_self (h : old ≠ []) (new : List Char) : replaceChars old new old = new := by
  have whole := replaceChars_append h new []
  rwa [List.append_nil, replaceChars_nil, List.append_nil] at whole

/-- A text without an occurrence stays. -/
theorem replaceChars_of_not_infix (h : ¬ old <:+: l) (new : List Char) :
    replaceChars old new l = l := by
  induction l with
  | nil => rfl
  | cons c l ih =>
    rw [List.infix_cons_iff, not_or] at h
    rw [replaceChars_cons h.1, ih h.2]

/-! ## Part by part -/

theorem prefix_of_prefix_append_cons {c : Char} {front back : List Char} (hc : c ∉ old)
    (h : old <+: front ++ c :: back) : old <+: front := by
  have upTo : front ++ [c] <+: front ++ c :: back :=
    ⟨back, (List.append_cons front c back).symm⟩
  rcases List.prefix_or_prefix_of_prefix h upTo with within | beyond
  · rcases List.prefix_concat_iff.1 within with rfl | within
    · exact absurd (List.mem_append_right front List.mem_cons_self) hc
    · exact within
  · exact absurd (beyond.subset (List.mem_append_right front List.mem_cons_self)) hc

theorem replaceChars_cons_of_notMem {c : Char} (ho : old ≠ []) (hc : c ∉ old)
    (new l : List Char) : replaceChars old new (c :: l) = c :: replaceChars old new l :=
  replaceChars_cons (fun h => ho (List.prefix_nil.1 (prefix_of_prefix_append_cons hc h))) new

/-- At a character that is not in the replaced text, replacing can be done in two parts. -/
theorem replaceChars_append_cons {c : Char} (ho : old ≠ []) (hc : c ∉ old)
    (new front back : List Char) : replaceChars old new (front ++ c :: back) =
      replaceChars old new front ++ c :: replaceChars old new back := by
  induction h : front.length using Nat.strongRecOn generalizing front with
  | ind n ih =>
    by_cases starts : old <+: front
    · -- an occurrence at the start: what follows it is shorter
      obtain ⟨rest, rfl⟩ := starts
      have shorter : rest.length < n := by
        have := List.length_pos_iff.2 ho
        rw [List.length_append] at h
        omega
      rw [List.append_assoc, replaceChars_append ho, ih _ shorter rest rfl, replaceChars_append ho,
        List.append_assoc]
    · have later : ¬ old <+: front ++ c :: back := mt (prefix_of_prefix_append_cons hc) starts
      cases front with
      | nil => rw [List.nil_append, replaceChars_cons later, replaceChars_nil, List.nil_append]
      | cons d front =>
        rw [List.cons_append] at later ⊢
        rw [replaceChars_cons later, replaceChars_cons starts,
          ih _ (by simp [← h]) front rfl, List.cons_append]

/-- Characters that are not the first one of the replaced text stay. -/
theorem replaceChars_append_of_notMem {first : Char} {mark front : List Char} (h : first ∉ front)
    (new back : List Char) : replaceChars (first :: mark) new (front ++ back) =
      front ++ replaceChars (first :: mark) new back := by
  induction front with
  | nil => rfl
  | cons c front ih =>
    rw [List.mem_cons, not_or] at h
    have other : ¬ first :: mark <+: c :: (front ++ back) := fun p =>
      h.1 (List.cons_prefix_cons.1 p).1
    rw [List.cons_append, replaceChars_cons other, ih h.2, List.cons_append]

end Replacing

end MapGate.Text
