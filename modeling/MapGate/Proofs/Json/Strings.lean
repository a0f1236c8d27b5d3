import MapGate.Json.Parser
import MapGate.Json.Printer
import MapGate.Proofs.Text.Digits

/-!
# JSON strings read back

Each character of a string is written in a way that is read back as that character
(`readStringBody?_escapeChar`), so the whole string is (`readString?_renderString`). What
is written has no control characters, and no line breaks in particular
(`le_of_mem_renderString`).
-/

namespace MapGate.Json

variable {c : Char} {rest : List Char}

/-! ## Reading -/

/-- The number of a control character in four digits. -/
theorem readHex4?_control (h : c.toNat < 0x20) :
    readHex4? ('0' :: '0' :: Text.smallHexDigit (c.toNat / 16) ::
      Text.smallHexDigit (c.toNat % 16) :: rest) = some (c.toNat, rest) := by
  have zero : Text.hexValue? '0' = some 0 := by decide
  rw [readHex4?, zero, Text.hexValue?_smallHexDigit (by omega),
    Text.hexValue?_smallHexDigit (by omega)]
  show some (((0 * 16 + 0) * 16 + c.toNat / 16) * 16 + c.toNat % 16, rest) = some (c.toNat, rest)
  rw [show ((0 * 16 + 0) * 16 + c.toNat / 16) * 16 + c.toNat % 16 = c.toNat by omega]

theorem readUnicode?_control (h : c.toNat < 0x20) :
    readUnicode? ('0' :: '0' :: Text.smallHexDigit (c.toNat / 16) ::
      Text.smallHexDigit (c.toNat % 16) :: rest) = some (c, rest) := by
  rw [readUnicode?, readHex4?_control h]
  show (if 0xD800 ≤ c.toNat ∧ c.toNat ≤ 0xDBFF then _ else _) = _
  rw [if_neg (by omega), if_neg (by omega), Char.ofNat_toNat]

/-- That there are no control characters among some can be computed. -/
theorem le_of_all {l : List Char} (h : l.all (0x20 ≤ ·.toNat) = true) : ∀ d ∈ l, 0x20 ≤ d.toNat :=
  fun d hd => of_decide_eq_true (List.all_eq_true.1 h d hd)

/-- A character is written as an escape that stands for it, or as it is where it can stand
in a string. -/
theorem escapeChar_cases (c : Char) :
    (∃ escape, escapeChar c = '\\' :: escape ∧ (∀ d ∈ escape, 0x20 ≤ d.toNat) ∧
      ∀ rest, readEscape? (escape ++ rest) = some (c, rest)) ∨
    escapeChar c = [c] ∧ c ≠ '"' ∧ c ≠ '\\' ∧ 0x20 ≤ c.toNat := by
  by_cases named : c ∈ ['"', '\\', '\n', '\r', '\t', '\x08', '\x0c']
  · simp only [List.mem_cons, List.not_mem_nil, or_false] at named
    rcases named with rfl | rfl | rfl | rfl | rfl | rfl | rfl <;>
      exact .inl ⟨_, rfl, le_of_all rfl, fun _ => rfl⟩
  · simp only [List.mem_cons, List.not_mem_nil, or_false, not_or] at named
    obtain ⟨quote, backslash, line, feed, tab, back, form⟩ := named
    rw [escapeChar, if_neg quote, if_neg backslash, if_neg line, if_neg feed, if_neg tab,
      if_neg back, if_neg form]
    split
    · rename_i control
      have digit : ∀ n < 16, 0x20 ≤ (Text.smallHexDigit n).toNat := by decide
      refine .inl ⟨_, rfl, ?_, fun _ => readUnicode?_control control⟩
      simp only [List.forall_mem_cons, List.not_mem_nil, false_imp_iff, implies_true, and_true]
      exact ⟨by decide, by decide, by decide, digit _ (by omega), digit _ (by omega)⟩
    · rename_i plain
      exact .inr ⟨rfl, quote, backslash, Nat.le_of_not_lt plain⟩

/-- A written character is read in one step. -/
theorem readStringBody?_escapeChar (c : Char) (fuel : Nat) (rest : List Char) :
    readStringBody? (fuel + 1) (escapeChar c ++ rest) =
      (readStringBody? fuel rest).map fun (body, rest) => (c :: body, rest) := by
  have added : ((readStringBody? fuel rest).bind fun (body, rest) => some (c :: body, rest)) =
      (readStringBody? fuel rest).map fun (body, rest) => (c :: body, rest) := by
    cases readStringBody? fuel rest <;> rfl
  rcases escapeChar_cases c with ⟨escape, written, -, read⟩ | ⟨written, quote, backslash, plain⟩
  · rw [written, List.cons_append, readStringBody?, if_neg (by decide), if_pos rfl, read]
    exact added
  · rw [written, List.singleton_append, readStringBody?, if_neg quote, if_neg backslash,
      if_neg (Nat.not_lt.2 plain)]
    exact added

theorem readStringBody?_escaped (l rest : List Char) {fuel : Nat} (enough : l.length < fuel) :
    readStringBody? fuel (l.flatMap escapeChar ++ '"' :: rest) = some (l, rest) := by
  induction l generalizing fuel with
  | nil =>
    obtain ⟨fuel, rfl⟩ := Nat.exists_eq_add_one_of_ne_zero (Nat.ne_of_gt enough)
    rw [List.flatMap_nil, List.nil_append, readStringBody?, if_pos rfl]
  | cons c l ih =>
    obtain ⟨fuel, rfl⟩ := Nat.exists_eq_add_one_of_ne_zero (Nat.ne_zero_of_lt enough)
    rw [List.flatMap_cons, List.append_assoc, readStringBody?_escapeChar,
      ih (Nat.lt_of_succ_lt_succ enough)]
    rfl

theorem length_le_escaped (l : List Char) : l.length ≤ (l.flatMap escapeChar).length := by
  induction l with
  | nil => exact Nat.le_refl _
  | cons c l ih =>
    have written : 1 ≤ (escapeChar c).length := by
      rcases escapeChar_cases c with ⟨escape, e, -⟩ | ⟨e, -⟩ <;> simp [e]
    rw [List.flatMap_cons, List.length_append, List.length_cons]
    omega

/-- A written string is read back, whatever follows. -/
theorem readString?_renderString (s : String) (rest : List Char) :
    readString? (renderString s ++ rest) = some (s, rest) := by
  have read : readStringBody? ((s.toList.flatMap escapeChar ++ '"' :: rest).length + 1)
      (s.toList.flatMap escapeChar ++ '"' :: rest) = some (s.toList, rest) := by
    refine readStringBody?_escaped _ _ ?_
    have := length_le_escaped s.toList
    rw [List.length_append]
    omega
  rw [renderString, List.append_assoc, List.cons_append, List.singleton_append, readString?, read]
  exact congrArg (fun s => some (s, rest)) String.ofList_toList

/-! ## Characters -/

theorem le_of_mem_escapeChar {d : Char} (h : d ∈ escapeChar c) : 0x20 ≤ d.toNat := by
  rcases escapeChar_cases c with ⟨escape, written, visible, -⟩ | ⟨written, -, -, plain⟩
  · rw [written, List.mem_cons] at h
    rcases h with rfl | h
    · decide
    · exact visible d h
  · rw [written, List.mem_singleton] at h
    exact h ▸ plain

theorem le_of_mem_renderString {s : String} {d : Char} (h : d ∈ renderString s) :
    0x20 ≤ d.toNat := by
  simp only [renderString, List.mem_append, List.mem_cons, List.mem_flatMap, List.not_mem_nil,
    or_false] at h
  rcases h with (rfl | ⟨c, -, h⟩) | rfl
  · decide
  · exact le_of_mem_escapeChar h
  · decide

end MapGate.Json
