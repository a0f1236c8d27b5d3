import MapGate.Http.HopByHop

/-!
# Headers removed and set

Removing a header leaves those of other names, in their order (`mem_remove`). A
header that is set occurs once (`values_set_self`), and the others stay
(`remove_set_self`). Headers of one connection are removed together
(`mem_withoutHopByHop`).
-/

namespace MapGate.Headers

variable {headers : Headers} {name : HeaderName} {value : ByteArray}
  {entry : HeaderName × ByteArray}

theorem mem_remove :
    entry ∈ (headers.remove name).entries ↔ entry ∈ headers.entries ∧ entry.1 ≠ name := by
  rw [remove, List.mem_filter, decide_eq_true_eq]

theorem mem_append :
    entry ∈ (headers.append name value).entries ↔ entry ∈ headers.entries ∨ entry = (name, value) := by
  rw [append, List.mem_append, List.mem_singleton]

/-- Setting a header keeps those of other names, in their order. -/
theorem remove_set_self : (headers.set name value).remove name = headers.remove name := by
  simp [set, append, remove]

/-- A header that is set has no other value. -/
theorem values_set_self : (headers.set name value).values name = [value] := by
  simp [set, append, remove, values]

theorem mem_withoutHopByHop : entry ∈ headers.withoutHopByHop.entries ↔
    entry ∈ headers.entries ∧ entry.1 ∉ headers.connectionNames ∧ entry.1 ∉ hopByHopNames := by
  simp [withoutHopByHop]

end MapGate.Headers
