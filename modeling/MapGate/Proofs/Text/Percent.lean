import MapGate.Text.Percent

/-!
# Percent-encoded bytes read back

Text without characters that have to be encoded stays as it is
(`percentEncode_eq_self`), and text that was encoded consists of characters that stand
for themselves and of encoded bytes (`forall_mem_percentEncode`). A byte that was
written as a percent sign and two digits is read back (`percentDecode_percentByte`),
and any byte that is no percent sign stands for itself (`percentDecode_cons_of_ne`).
-/

namespace MapGate.Text

theorem percentEncode_eq_self {keep : Char → Bool} {l : List Char} (h : ∀ c ∈ l, keep c = true) :
    percentEncode keep l = l := by
  induction l with
  | nil => rfl
  | cons c l ih =>
    rw [percentEncode, List.flatMap_cons, if_pos (h c List.mem_cons_self), ← percentEncode,
      ih fun d hd => h d (List.mem_cons_of_mem c hd)]
    rfl

theorem percentDecode_cons_of_ne {b : UInt8} (h : b ≠ 0x25) (rest : List UInt8) :
    percentDecode (b :: rest) = b :: percentDecode rest := by
  match rest with
  | [] => rfl
  | [_] => rfl
  | _ :: _ :: _ => rw [percentDecode, if_neg h]

theorem percentDecode_of_hexByte? {b c d : UInt8} (h : hexByte? c d = some b) (rest : List UInt8) :
    percentDecode (0x25 :: c :: d :: rest) = b :: percentDecode rest := by
  rw [percentDecode, if_pos rfl, h]

/-- A statement about bytes, from all numbers of bytes. -/
theorem forall_byte {p : UInt8 → Prop} (h : ∀ n < 0x100, p (UInt8.ofNat n)) (b : UInt8) : p b :=
  UInt8.ofNat_toNat (x := b) ▸ h b.toNat b.toNat_lt

/-- What holds of the characters that stand for themselves, and in encoded bytes, holds in
encoded text. -/
theorem forall_mem_percentEncode {keep p : Char → Bool} {l : List Char}
    (hk : ∀ c ∈ l, keep c = true → p c = true) (hp : ∀ b, (percentByte b).all p = true) :
    ∀ c ∈ percentEncode keep l, p c = true := by
  intro c hc
  obtain ⟨d, hd, hc⟩ := List.mem_flatMap.1 hc
  split at hc
  · rename_i kept
    rw [List.mem_singleton.1 hc]
    exact hk d hd kept
  · obtain ⟨b, -, hb⟩ := List.mem_flatMap.1 hc
    exact List.all_eq_true.1 (hp b) c hb

/-- Bytes without a percent sign stand for themselves. -/
theorem percentDecode_eq_self {bs : List UInt8} (h : 0x25 ∉ bs) : percentDecode bs = bs := by
  induction bs with
  | nil => rfl
  | cons b bs ih =>
    rw [List.mem_cons, not_or] at h
    rw [percentDecode_cons_of_ne (Ne.symm h.1), ih h.2]

/-- The byte of a hexadecimal digit. -/
def digitByte (n : Nat) : UInt8 := UInt8.ofNat (hexDigit n).toNat

theorem encodeChars_percentByte : ∀ b : UInt8, Utf8.encodeChars (percentByte b) =
    [0x25, digitByte (b.toNat / 16), digitByte (b.toNat % 16)] :=
  forall_byte (by decide +kernel)

theorem hexByte?_digitByte : ∀ b : UInt8,
    hexByte? (digitByte (b.toNat / 16)) (digitByte (b.toNat % 16)) = some b :=
  forall_byte (by decide +kernel)

theorem percentDecode_percentByte (b : UInt8) (rest : List UInt8) :
    percentDecode (Utf8.encodeChars (percentByte b) ++ rest) = b :: percentDecode rest := by
  rw [encodeChars_percentByte]
  exact percentDecode_of_hexByte? (hexByte?_digitByte b) rest

end MapGate.Text
