import Mathlib.Data.List.TakeWhile
import MapGate.Text.Blank

/-!
# Trimmed texts

A text is trimmed when no blank stands at either end (`trimChars_eq_self`).
Trimming gives a trimmed text, so trimming twice is trimming once
(`trim_trim`), and it gives a part of the text (`trimChars_isInfix`).
-/

namespace MapGate.Text

theorem head?_trimLeftChars {l : List Char} {c : Char} (h : (trimLeftChars l).head? = some c) :
    isBlank c = false := by
  have := List.head?_dropWhile_not isBlank l
  rw [show l.dropWhile isBlank = trimLeftChars l from rfl, h] at this
  simpa using this

theorem getLast?_trimRightChars {l : List Char} {c : Char}
    (h : (trimRightChars l).getLast? = some c) : isBlank c = false := by
  rw [trimRightChars, List.getLast?_reverse] at h
  exact head?_trimLeftChars h

/-- A text that starts with no blank keeps its start. -/
theorem trimLeftChars_eq_self {l : List Char} (h : ∀ c, l.head? = some c → isBlank c = false) :
    trimLeftChars l = l := by
  cases l with
  | nil => rfl
  | cons c l => exact List.dropWhile_cons_of_neg (by simp [h c rfl])

/-- A text that ends with no blank keeps its end. -/
theorem trimRightChars_eq_self {l : List Char} (h : ∀ c, l.getLast? = some c → isBlank c = false) :
    trimRightChars l = l := by
  have := trimLeftChars_eq_self (l := l.reverse) (by simpa using h)
  rw [trimRightChars, show l.reverse.dropWhile isBlank = l.reverse from this, List.reverse_reverse]

theorem trimRightChars_isPrefix (l : List Char) : trimRightChars l <+: l := by
  rw [← List.reverse_suffix, trimRightChars, List.reverse_reverse]
  exact List.dropWhile_suffix _

theorem trimChars_isInfix (l : List Char) : trimChars l <:+: l :=
  (trimRightChars_isPrefix _).isInfix.trans (List.dropWhile_suffix _).isInfix

theorem mem_of_mem_trimChars {l : List Char} {c : Char} (h : c ∈ trimChars l) : c ∈ l :=
  (trimChars_isInfix l).subset h

/-- What a trimmed text starts with is no blank. -/
theorem head?_trimChars {l : List Char} {c : Char} (h : (trimChars l).head? = some c) :
    isBlank c = false := by
  obtain ⟨t, ht⟩ := trimRightChars_isPrefix (trimLeftChars l)
  refine head?_trimLeftChars (l := l) ?_
  rw [← ht, List.head?_append, show trimRightChars (trimLeftChars l) = trimChars l from rfl, h]
  rfl

theorem trimChars_eq_self {l : List Char} (hs : ∀ c, l.head? = some c → isBlank c = false)
    (he : ∀ c, l.getLast? = some c → isBlank c = false) : trimChars l = l := by
  rw [trimChars, trimLeftChars_eq_self hs, trimRightChars_eq_self he]

@[simp] theorem trimChars_trimChars (l : List Char) : trimChars (trimChars l) = trimChars l :=
  trimChars_eq_self (fun _ => head?_trimChars) fun _ => getLast?_trimRightChars

@[simp] theorem trim_trim (s : String) : trim (trim s) = trim s := by
  rw [trim, toList_trim, trimChars_trimChars, trim]

theorem trim_ofList_trimChars (l : List Char) :
    trim (String.ofList (trimChars l)) = String.ofList (trimChars l) := by
  rw [trim, String.toList_ofList, trimChars_trimChars]

/-- Blanks at the ends of a text do not count. -/
theorem trimChars_append_append {front back : List Char} (hf : ∀ c ∈ front, isBlank c)
    (hb : ∀ c ∈ back, isBlank c) (l : List Char) : trimChars (front ++ l ++ back) = trimChars l := by
  rw [trimChars, trimChars, trimLeftChars, List.append_assoc, List.dropWhile_append_of_pos hf]
  cases h : l.dropWhile isBlank with
  | nil =>
    have all : ∀ c ∈ l, isBlank c := List.dropWhile_eq_nil_iff.1 h
    rw [List.dropWhile_append_of_pos all, List.dropWhile_eq_nil_iff.2 hb, trimLeftChars, h]
  | cons c rest =>
    rw [List.dropWhile_append, h, trimLeftChars, h, List.isEmpty_cons]
    rw [if_neg Bool.false_ne_true, trimRightChars, List.reverse_append,
      List.dropWhile_append_of_pos (by simpa using hb), trimRightChars]

/-- A text is its trimmed self between blanks. -/
theorem exists_eq_append_trimChars (l : List Char) : ∃ front back, l = front ++ trimChars l ++ back ∧
    (∀ c ∈ front, isBlank c) ∧ ∀ c ∈ back, isBlank c := by
  refine ⟨l.takeWhile isBlank, ((trimLeftChars l).reverse.takeWhile isBlank).reverse, ?_, ?_, ?_⟩
  · rw [List.append_assoc, trimChars, trimRightChars, ← List.reverse_append,
      List.takeWhile_append_dropWhile, List.reverse_reverse, trimLeftChars,
      List.takeWhile_append_dropWhile]
  · exact fun c hc => List.mem_takeWhile_imp hc
  · exact fun c hc => List.mem_takeWhile_imp (List.mem_reverse.1 hc)

/-- Only the end of a text is trimmed that starts with no blank. -/
theorem trimChars_cons {c : Char} (hc : isBlank c = false) (l : List Char) :
    trimChars (c :: l) = c :: trimRightChars l := by
  have hn : ¬ isBlank c = true := by simp [hc]
  rw [trimChars, trimLeftChars, List.dropWhile_cons_of_neg hn, trimRightChars, trimRightChars,
    List.reverse_cons, List.dropWhile_append, List.dropWhile_cons_of_neg hn]
  split <;> simp_all

theorem trimChars_toList {s : String} (h : trim s = s) : trimChars s.toList = s.toList := by
  rw [← toList_trim, h]

end MapGate.Text
