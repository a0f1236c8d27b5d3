import MapGate.Capabilities.Substitution

/-!
# The order in which links are replaced

`ordered` lists the same links (`mem_ordered`), and none after a shorter one
(`pairwise_ordered`). So of the links that come before another one none is a part of it: a part
that is at least as long is the whole (`eq_of_infix_of_size_le`).
-/

namespace MapGate.Capabilities

section Repetitions

variable {α : Type} [BEq α] [LawfulBEq α]

omit [LawfulBEq α] in
theorem sublist_eraseRepsBy_loop (a : α) (l found : List α) :
    (List.eraseRepsBy.loop (· == ·) a l found).Sublist (found.reverse ++ a :: l) := by
  induction l generalizing a found with
  | nil => simp [List.eraseRepsBy.loop]
  | cons b l ih =>
    rw [List.eraseRepsBy.loop]
    split
    · exact (ih a found).trans (by simp)
    · exact (ih b (a :: found)).trans (by simp)

theorem mem_eraseRepsBy_loop {x a : α} {l found : List α} (h : x ∈ found ∨ x = a ∨ x ∈ l) :
    x ∈ List.eraseRepsBy.loop (· == ·) a l found := by
  induction l generalizing a found with
  | nil => simpa [List.eraseRepsBy.loop, or_comm] using h
  | cons b l ih =>
    rw [List.eraseRepsBy.loop]
    split
    · rename_i same
      rw [beq_iff_eq] at same
      exact ih (by grind)
    · exact ih (by grind)

omit [LawfulBEq α] in
theorem sublist_eraseReps (l : List α) : l.eraseReps.Sublist l := by
  cases l with
  | nil => exact .refl _
  | cons a l => exact sublist_eraseRepsBy_loop a l []

theorem mem_eraseReps {x : α} {l : List α} : x ∈ l.eraseReps ↔ x ∈ l := by
  refine ⟨fun h => (sublist_eraseReps l).subset h, fun h => ?_⟩
  cases l with
  | nil => exact h
  | cons a l => exact mem_eraseRepsBy_loop (.inr (List.mem_cons.1 h))

end Repetitions

theorem replacedBefore_iff {s t : String} : replacedBefore s t = true ↔
    t.utf8ByteSize < s.utf8ByteSize ∨ t.utf8ByteSize = s.utf8ByteSize ∧ s ≤ t := by
  simp [replacedBefore]

theorem replacedBefore_trans (r s t : String) (hrs : replacedBefore r s = true)
    (hst : replacedBefore s t = true) : replacedBefore r t = true := by
  rw [replacedBefore_iff] at hrs hst ⊢
  rcases hrs with hrs | ⟨ers, lrs⟩ <;> rcases hst with hst | ⟨est, lst⟩
  · exact .inl (Nat.lt_trans hst hrs)
  · exact .inl (est ▸ hrs)
  · exact .inl (ers ▸ hst)
  · exact .inr ⟨est.trans ers, String.le_trans lrs lst⟩

theorem replacedBefore_total (s t : String) :
    (replacedBefore s t || replacedBefore t s) = true := by
  rw [Bool.or_eq_true, replacedBefore_iff, replacedBefore_iff]
  rcases Nat.lt_trichotomy s.utf8ByteSize t.utf8ByteSize with h | h | h
  · exact .inr (.inl h)
  · rcases String.le_total s t with l | l
    · exact .inl (.inr ⟨h.symm, l⟩)
    · exact .inr (.inr ⟨h, l⟩)
  · exact .inl (.inl h)

theorem mem_ordered {link : String} {ls : List String} : link ∈ ordered ls ↔ link ∈ ls :=
  mem_eraseReps.trans List.mem_mergeSort

/-- A link is at least as long as those that are replaced after it. -/
theorem pairwise_ordered (ls : List String) :
    (ordered ls).Pairwise fun s t => t.utf8ByteSize ≤ s.utf8ByteSize := by
  have sorted := List.pairwise_mergeSort replacedBefore_trans replacedBefore_total ls
  refine (sorted.sublist (sublist_eraseReps _)).imp fun {s t} before => ?_
  rcases replacedBefore_iff.1 before with longer | ⟨same, -⟩
  · exact Nat.le_of_lt longer
  · exact Nat.le_of_eq same

/-- A part that is at least as long as the whole is the whole. -/
theorem eq_of_infix_of_size_le {s t : String} (h : s.toList <:+: t.toList)
    (hs : t.utf8ByteSize ≤ s.utf8ByteSize) : s = t := by
  obtain ⟨front, back, e⟩ := h
  have whole : t = String.ofList front ++ s ++ String.ofList back := by
    rw [← String.toList_inj, String.toList_append, String.toList_append, String.toList_ofList,
      String.toList_ofList, e]
  have size := congrArg String.utf8ByteSize whole
  rw [String.utf8ByteSize_append, String.utf8ByteSize_append] at size
  have noFront : String.ofList front = "" := String.utf8ByteSize_eq_zero_iff.1 (by omega)
  have noBack : String.ofList back = "" := String.utf8ByteSize_eq_zero_iff.1 (by omega)
  rw [whole, noFront, noBack, String.empty_append, String.append_empty]

theorem ordered_pair {first second : String} (order : replacedBefore first second = true)
    (apart : first ≠ second) : ordered [first, second] = [first, second] := by
  have sorted : [first, second].Pairwise fun s t => replacedBefore s t = true := by
    simpa using order
  rw [ordered, List.mergeSort_of_pairwise sorted]
  simp [List.eraseReps, List.eraseRepsBy, List.eraseRepsBy.loop, beq_false_of_ne apart]

end MapGate.Capabilities
