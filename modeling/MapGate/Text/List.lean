import MapGate.Text.Blank

/-!
# Lists written in one text

Layer and attribute lists are written with a separator between their entries.
`splitOn` cuts a text at a character, `splitOnText` at a whole text, and
`entries` reads a comma list, in which blanks around an entry and empty
entries do not count.
-/

namespace MapGate.Text

/-- The pieces of a text between the occurrences of a character. -/
def splitOn (sep : Char) (s : String) : List String :=
  (s.toList.splitOn sep).map String.ofList

/-- What follows `p` in a list that starts with it. -/
def stripPrefixChars? : (p l : List Char) → Option (List Char)
  | [], l => some l
  | _ :: _, [] => none
  | p :: ps, c :: cs => if p = c then stripPrefixChars? ps cs else none

/-- Cuts `l` at the occurrences of `sep`, found from the left without overlap.
`skip` counts the characters of an occurrence that are still to be passed,
and `piece` holds the piece so far in reverse. -/
def splitCharsFrom (sep : List Char) : (skip : Nat) → (piece l : List Char) → List (List Char)
  | _, piece, [] => [piece.reverse]
  | skip + 1, piece, _ :: cs => splitCharsFrom sep skip piece cs
  | 0, piece, c :: cs =>
    if sep.isPrefixOf (c :: cs) then piece.reverse :: splitCharsFrom sep (sep.length - 1) [] cs
    else splitCharsFrom sep 0 (c :: piece) cs

/-- The pieces of a text between the occurrences of a non-empty text. -/
def splitOnText (sep s : String) : List String :=
  (splitCharsFrom sep.toList 0 [] s.toList).map String.ofList

/-- `s` with every occurrence of the non-empty text `old`, found from the left
without overlap, replaced by `new`. -/
def replace (old new s : String) : String := new.intercalate (splitOnText old s)

/-- A text without the occurrences of a character at its end. -/
def withoutFinal (c : Char) (s : String) : String :=
  String.ofList (s.toList.reverse.dropWhile (· = c)).reverse

/-- The entries of a comma list, trimmed, without the blank ones. -/
def entries (s : String) : List String :=
  ((splitOn ',' s).map trim).filter (· ≠ "")

/-- What stands before and after the first `sep`, if there is one. -/
def splitFirst? (sep : Char) (l : List Char) : Option (List Char × List Char) :=
  match l.dropWhile (· ≠ sep) with
  | [] => none
  | _ :: rest => some (l.takeWhile (· ≠ sep), rest)

/-- What stands before and after the first occurrence of `mark`, if there is
one. -/
def splitAtChars? (mark : List Char) : List Char → Option (List Char × List Char)
  | [] => if mark.isEmpty then some ([], []) else none
  | c :: cs =>
    match stripPrefixChars? mark (c :: cs) with
    | some rest => some ([], rest)
    | none => (splitAtChars? mark cs).map fun (before, rest) => (c :: before, rest)

/-- Whether `part` occurs in `l`. -/
def containsChars (part : List Char) : List Char → Bool
  | [] => part.isEmpty
  | c :: cs => part.isPrefixOf (c :: cs) || containsChars part cs

/-- Whether `part` occurs in `s`. -/
def contains (part s : String) : Bool := containsChars part.toList s.toList

theorem containsChars_iff {part l : List Char} : containsChars part l ↔ part <:+: l := by
  induction l with
  | nil => rw [containsChars, List.isEmpty_iff, List.infix_nil]
  | cons c cs ih =>
    rw [containsChars, Bool.or_eq_true, ih, List.isPrefixOf_iff_prefix, List.infix_cons_iff]

theorem contains_iff {part s : String} : contains part s ↔ part.toList <:+: s.toList :=
  containsChars_iff

theorem eq_append_of_stripPrefixChars? {p l rest : List Char}
    (h : stripPrefixChars? p l = some rest) : l = p ++ rest := by
  induction p generalizing l with
  | nil => simpa [stripPrefixChars?] using h
  | cons c p ih =>
    cases l with
    | nil => simp [stripPrefixChars?] at h
    | cons d l =>
      rw [stripPrefixChars?] at h
      split at h
      · rename_i e; rw [e, ih h, List.cons_append]
      · cases h

theorem eq_append_of_splitAtChars? {mark l before rest : List Char}
    (h : splitAtChars? mark l = some (before, rest)) : l = before ++ mark ++ rest := by
  induction l generalizing before with
  | nil =>
    rw [splitAtChars?] at h
    split at h
    · cases h; rename_i e; simp [List.isEmpty_iff.1 e]
    · cases h
  | cons c cs ih =>
    rw [splitAtChars?] at h
    split at h
    · rename_i e; cases h; exact eq_append_of_stripPrefixChars? e
    · obtain ⟨⟨b, r⟩, hs, e⟩ := Option.map_eq_some_iff.1 h
      cases e; rw [ih hs]; rfl

end MapGate.Text
