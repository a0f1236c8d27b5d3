import MapGate.Text.Utf8

/-!
# Bytes of a text read back

The bytes that a character is written with are read as this character, whatever
follows them (`readChar_encodeChar`). So a text is read back from its bytes
(`decode_encode`).
-/

namespace MapGate.Text.Utf8

theorem toNat_byte {n : Nat} (h : n < 0x100) : (UInt8.ofNat n).toNat = n := by
  rw [UInt8.toNat_ofNat']
  omega

/-! ## The ranges of bytes -/

theorem isContinuation_iff {b : UInt8} :
    isContinuation b = true ↔ 0x80 ≤ b.toNat ∧ b.toNat ≤ 0xBF := by
  simp [isContinuation, UInt8.le_iff_toNat_le]

/-- After the first byte of three, the second one is no continuation of a character
that takes fewer bytes, or of a surrogate. -/
theorem startsOf3_iff {b c : UInt8} : startsOf3 b c = true ↔
    isContinuation c = true ∧ (b.toNat = 0xE0 → 0xA0 ≤ c.toNat) ∧
      (b.toNat = 0xED → c.toNat ≤ 0x9F) := by
  simp only [startsOf3, isContinuation, beq_iff_eq, ← UInt8.toNat_inj, UInt8.le_iff_toNat_le,
    UInt8.reduceToNat, Bool.and_eq_true, decide_eq_true_eq]
  split
  · simp; omega
  · split
    · simp; omega
    · simp; omega

/-- After the first byte of four, the second one is no continuation of a character
that takes fewer bytes, or of what is beyond all characters. -/
theorem startsOf4_iff {b c : UInt8} : startsOf4 b c = true ↔
    isContinuation c = true ∧ (b.toNat = 0xF0 → 0x90 ≤ c.toNat) ∧
      (b.toNat = 0xF4 → c.toNat ≤ 0x8F) := by
  simp only [startsOf4, isContinuation, beq_iff_eq, ← UInt8.toNat_inj, UInt8.le_iff_toNat_le,
    UInt8.reduceToNat, Bool.and_eq_true, decide_eq_true_eq]
  split
  · simp; omega
  · split
    · simp; omega
    · simp; omega

/-- The byte with the last six bits of a number. -/
def tailByte (n : Nat) : UInt8 := UInt8.ofNat (0x80 + n % 0x40)

theorem toNat_tailByte (n : Nat) : (tailByte n).toNat = 0x80 + n % 0x40 := by
  have small : 0x80 + n % 0x40 < 0x100 := by omega
  rw [tailByte, toNat_byte small]

theorem payload_tailByte (n : Nat) : payload (tailByte n) = n % 0x40 := by
  have e := toNat_tailByte n
  unfold payload
  omega

theorem isContinuation_tailByte (n : Nat) : isContinuation (tailByte n) = true := by
  rw [isContinuation_iff, toNat_tailByte]
  omega

/-! ## Characters

One lemma for each number of bytes. -/

theorem readChar_one {c : Char} (h : c.toNat < 0x80) (bs : List UInt8) :
    readChar (UInt8.ofNat c.toNat) bs = (c, 0) := by
  have lead := toNat_byte (n := c.toNat) (by omega)
  have small : UInt8.ofNat c.toNat < 0x80 := UInt8.lt_iff_toNat_lt.2 (lead.symm ▸ h)
  rw [readChar.eq_def, if_pos small, lead, Char.ofNat_toNat]

theorem readChar_two {c : Char} (h : 0x80 ≤ c.toNat) (h' : c.toNat < 0x800) (bs : List UInt8) :
    readChar (UInt8.ofNat (0xC0 + c.toNat / 0x40)) (tailByte c.toNat :: bs) = (c, 1) := by
  have lead := toNat_byte (n := 0xC0 + c.toNat / 0x40) (by omega)
  have value : (0xC0 + c.toNat / 0x40 - 0xC0) * 0x40 + c.toNat % 0x40 = c.toNat := by omega
  generalize UInt8.ofNat (0xC0 + c.toNat / 0x40) = b at lead ⊢
  have several : ¬ b < 0x80 := by simp [UInt8.lt_iff_toNat_lt, lead]; omega
  have two : isLeadOf2 b = true := by simp [isLeadOf2, UInt8.le_iff_toNat_le, lead]; omega
  rw [readChar.eq_def, if_neg several, if_pos two]
  simp only [isContinuation_tailByte, if_true, payload_tailByte, lead, value, Char.ofNat_toNat]

theorem readChar_three {c : Char} (h : 0x800 ≤ c.toNat) (h' : c.toNat < 0x10000)
    (bs : List UInt8) :
    readChar (UInt8.ofNat (0xE0 + c.toNat / 0x1000))
      (tailByte (c.toNat / 0x40) :: tailByte c.toNat :: bs) = (c, 2) := by
  have lead := toNat_byte (n := 0xE0 + c.toNat / 0x1000) (by omega)
  have value : (0xE0 + c.toNat / 0x1000 - 0xE0) * 0x1000 + c.toNat / 0x40 % 0x40 * 0x40 +
      c.toNat % 0x40 = c.toNat := by omega
  generalize UInt8.ofNat (0xE0 + c.toNat / 0x1000) = b at lead ⊢
  have several : ¬ b < 0x80 := by simp [UInt8.lt_iff_toNat_lt, lead]; omega
  have more : ¬ isLeadOf2 b = true := by simp [isLeadOf2, UInt8.le_iff_toNat_le, lead]; omega
  have three : (0xE0 ≤ b && b ≤ 0xEF) = true := by simp [UInt8.le_iff_toNat_le, lead]; omega
  have starts : startsOf3 b (tailByte (c.toNat / 0x40)) = true := by
    have valid : c.toNat < 0xD800 ∨ 0xDFFF < c.toNat ∧ c.toNat < 0x110000 := c.valid
    rw [startsOf3_iff, lead, toNat_tailByte]
    exact ⟨isContinuation_tailByte _, fun _ => by omega, fun _ => by omega⟩
  rw [readChar.eq_def, if_neg several, if_neg more, if_pos three]
  simp only [starts, Bool.not_true, Bool.false_eq_true, if_false, isContinuation_tailByte,
    if_true, payload_tailByte, lead, value, Char.ofNat_toNat]

theorem readChar_four {c : Char} (h : 0x10000 ≤ c.toNat) (bs : List UInt8) :
    readChar (UInt8.ofNat (0xF0 + c.toNat / 0x40000))
      (tailByte (c.toNat / 0x1000) :: tailByte (c.toNat / 0x40) :: tailByte c.toNat :: bs) =
        (c, 3) := by
  have valid : c.toNat < 0xD800 ∨ 0xDFFF < c.toNat ∧ c.toNat < 0x110000 := c.valid
  have lead := toNat_byte (n := 0xF0 + c.toNat / 0x40000) (by omega)
  have value : (0xF0 + c.toNat / 0x40000 - 0xF0) * 0x40000 +
      c.toNat / 0x1000 % 0x40 * 0x1000 + c.toNat / 0x40 % 0x40 * 0x40 + c.toNat % 0x40 =
        c.toNat := by omega
  generalize UInt8.ofNat (0xF0 + c.toNat / 0x40000) = b at lead ⊢
  have several : ¬ b < 0x80 := by simp [UInt8.lt_iff_toNat_lt, lead]; omega
  have more : ¬ isLeadOf2 b = true := by simp [isLeadOf2, UInt8.le_iff_toNat_le, lead]; omega
  have still : ¬ (0xE0 ≤ b && b ≤ 0xEF) = true := by simp [UInt8.le_iff_toNat_le, lead]; omega
  have four : (0xF0 ≤ b && b ≤ 0xF4) = true := by simp [UInt8.le_iff_toNat_le, lead]; omega
  have starts : startsOf4 b (tailByte (c.toNat / 0x1000)) = true := by
    rw [startsOf4_iff, lead, toNat_tailByte]
    exact ⟨isContinuation_tailByte _, fun _ => by omega, fun _ => by omega⟩
  rw [readChar.eq_def, if_neg several, if_neg more, if_neg still, if_pos four]
  simp only [starts, Bool.not_true, Bool.false_eq_true, if_false, isContinuation_tailByte,
    if_true, payload_tailByte, lead, value, Char.ofNat_toNat]

/-- A character is read from its bytes, of which all behind the first are passed. -/
theorem readChar_encodeChar (c : Char) (bs : List UInt8) :
    ∃ b rest, encodeChar c = b :: rest ∧ readChar b (rest ++ bs) = (c, rest.length) := by
  rw [encodeChar]
  split
  · rename_i h
    exact ⟨_, [], rfl, readChar_one h bs⟩
  · rename_i h
    split
    · rename_i h'
      exact ⟨_, _, rfl, readChar_two (by omega) h' bs⟩
    · rename_i h'
      split
      · rename_i h''
        exact ⟨_, _, rfl, readChar_three (by omega) h'' bs⟩
      · rename_i h''
        exact ⟨_, _, rfl, readChar_four (by omega) bs⟩

/-! ## Texts -/

theorem encodeChars_append (l m : List Char) :
    encodeChars (l ++ m) = encodeChars l ++ encodeChars m :=
  List.flatMap_append

theorem decodeFrom_length_append (passed bs : List UInt8) :
    decodeFrom passed.length (passed ++ bs) = decodeFrom 0 bs := by
  induction passed with
  | nil => rfl
  | cons b passed ih => rw [List.length_cons, List.cons_append, decodeFrom, ih]

/-- Characters are read back from their bytes. -/
theorem decodeChars_encodeChars (l : List Char) : decodeChars (encodeChars l) = l := by
  induction l with
  | nil => rfl
  | cons c l ih =>
    obtain ⟨b, rest, e, read⟩ := readChar_encodeChar c (encodeChars l)
    rw [encodeChars, List.flatMap_cons, e, List.cons_append, decodeChars, decodeFrom, ← encodeChars,
      read, decodeFrom_length_append, ← decodeChars, ih]

/-- A text is read back from its bytes. -/
theorem decode_encode (s : String) : decode (encode s) = s := by
  rw [decode, encode, decodeChars_encodeChars, String.ofList_toList]

end MapGate.Text.Utf8
