import Mathlib.Data.String.Basic
import MapGate.Text.Ascii

/-!
# Letter case

Folding a text to one case forgets nothing but the case (`lower_upper`,
`upper_lower`), so that texts may be compared in either (`upper_eq_upper_iff`). The
text takes as many bytes in either case (`utf8ByteSize_upper`).
-/

namespace MapGate.Text

/-- A capital is 32 places before its small letter. -/
theorem val_toLower (c : Char) :
    c.toLower.val = if 65 ≤ c.val ∧ c.val ≤ 90 then c.val + (97 - 65) else c.val := by
  by_cases h : 65 ≤ c.val ∧ c.val ≤ 90
  · exact (congrArg Char.val (dif_pos h)).trans (if_pos h).symm
  · exact (congrArg Char.val (dif_neg h)).trans (if_neg h).symm

/-- A small letter is 32 places behind its capital. -/
theorem val_toUpper (c : Char) :
    c.toUpper.val = if 97 ≤ c.val ∧ c.val ≤ 122 then c.val + (65 - 97) else c.val := by
  by_cases h : 97 ≤ c.val ∧ c.val ≤ 122
  · exact (congrArg Char.val (dif_pos h)).trans (if_pos h).symm
  · exact (congrArg Char.val (dif_neg h)).trans (if_neg h).symm

theorem toLower_toUpper (c : Char) : c.toUpper.toLower = c.toLower := by
  refine Char.ext ?_
  rw [val_toLower, val_toUpper, val_toLower]
  grind

theorem toUpper_toLower (c : Char) : c.toLower.toUpper = c.toUpper := by
  refine Char.ext ?_
  rw [val_toUpper, val_toLower, val_toUpper]
  grind

theorem toLower_toLower (c : Char) : c.toLower.toLower = c.toLower := by
  refine Char.ext ?_
  rw [val_toLower, val_toLower]
  grind

theorem lower_upper (s : String) : lower (upper s) = lower s := by
  rw [lower, toList_upper, List.map_map, lower]
  exact congrArg String.ofList (List.map_congr_left fun c _ => toLower_toUpper c)

theorem upper_lower (s : String) : upper (lower s) = upper s := by
  rw [upper, lower, String.toList_ofList, List.map_map, upper]
  exact congrArg String.ofList (List.map_congr_left fun c _ => toUpper_toLower c)

/-- Texts that agree in capitals are those that agree in small letters. -/
theorem upper_eq_upper_iff {s t : String} : upper s = upper t ↔ sameName s t := by
  rw [sameName_iff]
  constructor
  · intro h
    rw [← lower_upper, h, lower_upper]
  · intro h
    rw [← upper_lower, h, upper_lower]

/-- Only ASCII letters have a case, and they all take one byte. -/
theorem utf8Size_toUpper (c : Char) : c.toUpper.utf8Size = c.utf8Size := by
  by_cases h : 97 ≤ c.val ∧ c.val ≤ 122
  · have small : c.val ≤ 127 := by grind
    have capital : c.toUpper.val ≤ 127 := by
      rw [val_toUpper, if_pos h]
      grind
    rw [Char.utf8Size_eq_one_iff.2 small, Char.utf8Size_eq_one_iff.2 capital]
  · have same : c.toUpper = c := Char.ext (by rw [val_toUpper, if_neg h])
    rw [same]

theorem utf8ByteSize_upper (s : String) : (upper s).utf8ByteSize = s.utf8ByteSize := by
  have chars : ∀ cs : List Char, String.utf8Len (cs.map Char.toUpper) = String.utf8Len cs := by
    intro cs
    induction cs with
    | nil => rfl
    | cons c cs ih =>
      rw [List.map_cons, String.utf8Len_cons, String.utf8Len_cons, ih, utf8Size_toUpper]
  rw [upper, String.utf8ByteSize_ofList, chars, ← String.utf8ByteSize_ofList,
    String.ofList_toList]

end MapGate.Text
