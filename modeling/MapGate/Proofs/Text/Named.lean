/-!
# Values by name

Parameters and attributes are pairs of a name and a value. A look-up gives the
value of the first pair whose name will do.
-/

namespace MapGate.Text

/-- The first pair whose name will do stands behind pairs whose names will not. -/
theorem find?_name_eq_some_iff {p : String → Bool} {pairs : List (String × String)}
    {value : String} : (pairs.find? fun pair => p pair.1).map (·.2) = some value ↔
      ∃ before name after, pairs = before ++ (name, value) :: after ∧ p name = true ∧
        ∀ pair ∈ before, ¬ p pair.1 = true := by
  simp only [Option.map_eq_some_iff, List.find?_eq_some_iff_append, Bool.not_eq_true',
    Bool.not_eq_true]
  constructor
  · intro h
    obtain ⟨⟨name, _⟩, ⟨hp, before, after, e, hb⟩, rfl⟩ := h
    exact ⟨before, name, after, e, hp, hb⟩
  · intro h
    obtain ⟨before, name, after, e, hp, hb⟩ := h
    exact ⟨(name, value), ⟨hp, before, after, e, hb⟩, rfl⟩

end MapGate.Text
