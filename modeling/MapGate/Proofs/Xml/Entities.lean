import MapGate.Xml.Entity

/-!
# Entities read back

What is written with entities is read back (`unescape?_escape`), and holds none
of the characters that entities stand for, so that it ends where the markup
around it says (`of_mem_escape`).
-/

namespace MapGate.Xml

theorem escape_append (l r : List Char) : escape (l ++ r) = escape l ++ escape r :=
  List.flatMap_append

theorem escapeChar_ne_nil (c : Char) : escapeChar c ≠ [] := by
  unfold escapeChar
  split <;> simp

theorem escape_eq_nil_iff {l : List Char} : escape l = [] ↔ l = [] := by
  cases l <;> simp [escape, escapeChar_ne_nil]

theorem unescapeFrom?_escapeChar (c : Char) (rest : List Char) :
    unescapeFrom? none (escapeChar c ++ rest) = (unescapeFrom? none rest).map (c :: ·) := by
  unfold escapeChar
  split
  · rfl
  · rfl
  · rfl
  · rfl
  · rfl
  · rename_i h _ _ _ _
    rw [List.singleton_append, unescapeFrom?, if_neg h]

theorem unescape?_escape (l : List Char) : unescape? (escape l) = some l := by
  rw [unescape?]
  induction l with
  | nil => rfl
  | cons c l ih => rw [escape, List.flatMap_cons, unescapeFrom?_escapeChar, ← escape, ih]; rfl

theorem of_mem_escapeChar {c d : Char} (h : d ∈ escapeChar c) : d ≠ '<' ∧ d ≠ '>' ∧ d ≠ '"' := by
  have entity : ∀ l : List Char, l.all (fun d => d ≠ '<' && d ≠ '>' && d ≠ '"') = true → d ∈ l →
      d ≠ '<' ∧ d ≠ '>' ∧ d ≠ '"' := fun l hl hd => by
    simpa [and_assoc] using List.all_eq_true.1 hl d hd
  unfold escapeChar at h
  split at h
  · exact entity _ (by decide) h
  · exact entity _ (by decide) h
  · exact entity _ (by decide) h
  · exact entity _ (by decide) h
  · exact entity _ (by decide) h
  · rename_i hl hg _ hq
    rw [List.mem_singleton.1 h]
    exact ⟨hl, hg, hq⟩

theorem of_mem_escape {l : List Char} {d : Char} (h : d ∈ escape l) :
    d ≠ '<' ∧ d ≠ '>' ∧ d ≠ '"' := by
  obtain ⟨c, -, hc⟩ := List.mem_flatMap.1 h
  exact of_mem_escapeChar hc

/-- A quoted value does not end inside of it. -/
theorem quote_notMem_escape (l : List Char) : '"' ∉ escape l := fun h => (of_mem_escape h).2.2 rfl

end MapGate.Xml
