/-!
# Letter case

Only the ASCII letters have a case here. `lower` and `upper` fold a text to
one case, and `sameName` compares two texts without regard to it.
-/

namespace MapGate.Text

/-- A text with its ASCII capitals made small. -/
def lower (s : String) : String := String.ofList (s.toList.map Char.toLower)

/-- A text with its small ASCII letters made capital. -/
def upper (s : String) : String := String.ofList (s.toList.map Char.toUpper)

theorem toList_upper (s : String) : (upper s).toList = s.toList.map Char.toUpper :=
  String.toList_ofList

/-- Whether two texts are equal up to the case of ASCII letters. -/
def sameName (s t : String) : Bool := lower s == lower t

theorem sameName_iff {s t : String} : sameName s t ↔ lower s = lower t := by
  simp [sameName]

@[simp] theorem sameName_refl (s : String) : sameName s s := by simp [sameName]

theorem sameName_comm (s t : String) : sameName s t = sameName t s := by
  rw [Bool.eq_iff_iff, sameName_iff, sameName_iff, eq_comm]

end MapGate.Text
