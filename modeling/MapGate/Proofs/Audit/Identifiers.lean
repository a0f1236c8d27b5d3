import MapGate.Audit.Uuid
import MapGate.Proofs.Text.Digits
import MapGate.Proofs.Text.Percent

/-!
# Identifiers read back

An identifier is read back from its text (`ofText?_render`): the text is none of the other
forms that can be read, its pieces are the groups of digits, and each two digits are a byte.
-/

namespace MapGate.Uuid

/-- A small hexadecimal digit is none of the characters that other forms of identifiers start
with, and no hyphen. -/
theorem smallHexDigit_ne {n : Nat} (h : n < 16) : Text.smallHexDigit n ≠ '-' ∧
    Text.smallHexDigit n ≠ 'u' ∧ Text.smallHexDigit n ≠ '\x7b' := by
  have all : ∀ n < 16, Text.smallHexDigit n ≠ '-' ∧ Text.smallHexDigit n ≠ 'u' ∧
      Text.smallHexDigit n ≠ '\x7b' := by decide
  exact all n h

theorem bytes?_renderByte (b : UInt8) (rest : List Char) :
    bytes? (renderByte b ++ rest) = (bytes? rest).map (b :: ·) := by
  have small := b.toNat_lt
  rw [renderByte, List.cons_append, List.singleton_append, bytes?,
    Text.hexValue?_smallHexDigit (by omega), Text.hexValue?_smallHexDigit (by omega)]
  simp only [Option.bind_eq_bind, Option.bind_some]
  rw [show b.toNat / 16 * 16 + b.toNat % 16 = b.toNat by omega, UInt8.ofNat_toNat]
  cases bytes? rest <;> rfl

theorem bytes?_render (bytes : List UInt8) : bytes? (bytes.flatMap renderByte) = some bytes := by
  induction bytes with
  | nil => rfl
  | cons b bytes ih => rw [List.flatMap_cons, bytes?_renderByte, ih, Option.map_some]

theorem hyphen_notMem (bytes : List UInt8) : '-' ∉ bytes.flatMap renderByte := by
  rw [List.mem_flatMap]
  rintro ⟨b, -, h⟩
  have small := b.toNat_lt
  simp only [renderByte, List.mem_cons, List.not_mem_nil, or_false] at h
  rcases h with h | h
  · exact (smallHexDigit_ne (by omega)).1 h.symm
  · exact (smallHexDigit_ne (by omega)).1 h.symm

theorem flatten_groups (bytes : List UInt8) : (groups bytes).flatten = bytes := by
  simp only [groups, List.flatten_cons, List.flatten_nil, List.append_nil]
  rw [show bytes.drop 10 = (bytes.drop 8).drop 2 by rw [List.drop_drop],
    List.take_append_drop, show bytes.drop 8 = (bytes.drop 6).drop 2 by rw [List.drop_drop],
    List.take_append_drop, show bytes.drop 6 = (bytes.drop 4).drop 2 by rw [List.drop_drop],
    List.take_append_drop, List.take_append_drop]

theorem flatten_digits (groups : List (List UInt8)) :
    (groups.map (·.flatMap renderByte)).flatten = groups.flatten.flatMap renderByte := by
  induction groups with
  | nil => rfl
  | cons group groups ih =>
    rw [List.map_cons, List.flatten_cons, List.flatten_cons, List.flatMap_append, ih]

theorem length_flatMap_renderByte (bytes : List UInt8) :
    (bytes.flatMap renderByte).length = 2 * bytes.length := by
  induction bytes with
  | nil => rfl
  | cons b bytes ih =>
    rw [List.flatMap_cons, List.length_append, ih, List.length_cons]
    show 2 + _ = _
    omega

/-- The groups of digits of an identifier are read together. -/
theorem ofHyphenated?_render (id : Uuid) : ofHyphenated? id.render.toList = some id := by
  have pieces : id.render.toList.splitOn '-' = (groups id.bytes).map (·.flatMap renderByte) := by
    rw [render, String.toList_ofList, List.splitOn_intercalate]
    · simp only [List.forall_mem_map]
      exact fun group _ => hyphen_notMem group
    · simp [groups]
  have lengths : ((groups id.bytes).map (·.flatMap renderByte)).map List.length =
      [8, 4, 4, 4, 12] := by
    simp only [groups, List.map_cons, List.map_nil, length_flatMap_renderByte, List.length_take,
      List.length_drop, id.length_bytes]
    rfl
  rw [ofHyphenated?, pieces, if_pos lengths, flatten_digits, flatten_groups, ofDigits?, bytes?_render]
  simp only [Option.bind_eq_bind, Option.bind_some, id.length_bytes, dif_pos]

/-- The text of an identifier starts with a digit and has a hyphen. -/
theorem exists_render (id : Uuid) : ∃ n < 16, ∃ digits rest,
    id.render.toList = Text.smallHexDigit n :: (digits ++ '-' :: rest) := by
  obtain ⟨bytes, length⟩ := id
  match bytes, length with
  | b :: bytes, _ =>
    have small := b.toNat_lt
    rw [render, String.toList_ofList]
    exact ⟨b.toNat / 16, by omega,
      Text.smallHexDigit (b.toNat % 16) :: (bytes.take 3).flatMap renderByte, _, rfl⟩

/-- An identifier is read back from its text. -/
theorem ofText?_render (id : Uuid) : ofText? id.render = some id := by
  have read := ofHyphenated?_render id
  obtain ⟨n, small, digits, rest, written⟩ := exists_render id
  obtain ⟨-, urn, brace⟩ := smallHexDigit_ne small
  have name : Text.stripPrefixChars? "urn:uuid:".toList id.render.toList = none := by
    rw [written]
    exact if_neg (Ne.symm urn)
  have hyphen : id.render.toList.contains '-' = true := by
    rw [written]
    simp
  rw [ofText?, name]
  split
  · rename_i e
    cases e
  · rename_i e
    exact absurd (List.cons.inj (written.symm.trans e)).1 brace
  · rw [if_pos hyphen, read]

end MapGate.Uuid
