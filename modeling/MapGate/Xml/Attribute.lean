import MapGate.Xml.Entity
import MapGate.Xml.Event

/-!
# Attributes

A tag lists attributes after its name, each a key, an equals sign and a value in
quotes of either kind. Blanks may stand anywhere between these, and none need
to. No key occurs twice.
-/

namespace MapGate.Xml

/-- Reads one attribute: its key, and its value as written. -/
def readAttribute? (l : List Char) : Option ((List Char × List Char) × List Char) :=
  match l with
  | [] => none
  | first :: l =>
    let key := first :: l.takeWhile fun c => c ≠ '=' && !isSpace c
    match (l.dropWhile fun c => c ≠ '=' && !isSpace c).dropWhile isSpace with
    | '=' :: l =>
      match l.dropWhile isSpace with
      | quote :: l =>
        if quote = '"' ∨ quote = '\'' then
          match Text.splitFirst? quote l with
          | some (value, rest) => some ((key, value), rest)
          | none => none
        else none
      | [] => none
    | _ => none

theorem length_splitFirst? {sep : Char} {l before rest : List Char}
    (h : Text.splitFirst? sep l = some (before, rest)) : rest.length < l.length := by
  unfold Text.splitFirst? at h
  split at h
  · cases h
  · rename_i c tail e
    cases h
    have := (List.dropWhile_sublist (· ≠ sep) (l := l)).length_le
    rw [e, List.length_cons] at this
    omega

theorem length_readAttribute? {l rest : List Char} {entry : List Char × List Char}
    (h : readAttribute? l = some (entry, rest)) : rest.length < l.length := by
  cases l with
  | nil => cases h
  | cons first l =>
    simp only [readAttribute?] at h
    split at h
    · rename_i l₁ e₁
      split at h
      · rename_i quote l₂ e₂
        split at h
        · split at h
          · rename_i value rest' e₃
            cases h
            have h₁ := (List.dropWhile_sublist isSpace
              (l := l.dropWhile fun c => c ≠ '=' && !isSpace c)).length_le
            have h₂ := (List.dropWhile_sublist (fun c => c ≠ '=' && !isSpace c) (l := l)).length_le
            have h₃ := (List.dropWhile_sublist isSpace (l := l₁)).length_le
            have h₄ := length_splitFirst? e₃
            rw [e₁, List.length_cons] at h₁
            rw [e₂, List.length_cons] at h₃
            rw [List.length_cons]
            omega
          · cases h
        · cases h
      · cases h
    · cases h

/-- Reads the attributes that follow those with the keys `seen`. -/
def attributesFrom (seen : List String) (l : List Char) :
    Except Fault (List (String × String)) :=
  if (l.dropWhile isSpace).isEmpty then .ok []
  else match h : readAttribute? (l.dropWhile isSpace) with
  | none => .error .attributes
  | some ((key, written), rest) =>
    have := Nat.lt_of_lt_of_le (length_readAttribute? h) (List.dropWhile_sublist _).length_le
    if String.ofList key ∈ seen then .error .attributes
    else match unescape? written with
      | none => .error .entity
      | some value =>
        (attributesFrom (String.ofList key :: seen) rest).map
          ((String.ofList key, String.ofList value) :: ·)
termination_by l.length

/-- The attributes of a tag. -/
def Tag.attributes (tag : Tag) : Except Fault (List (String × String)) :=
  attributesFrom [] tag.rest

end MapGate.Xml
