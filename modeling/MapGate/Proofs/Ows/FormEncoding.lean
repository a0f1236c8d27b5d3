import Mathlib.Data.List.Basic
import MapGate.Ows.Params
import MapGate.Proofs.Text.Percent
import MapGate.Proofs.Text.Utf8

/-!
# Parameters read back

A name or value is read back from its form encoding (`decodeBytes_formBytes`), in
which no separator occurs (`separators_notMem_formBytes`). So are pairs
(`decodePair_pairBytes`) and with them all parameters, in their order
(`ofQuery_toQuery`).
-/

namespace MapGate.Params

open Text (forall_byte)

/-! ## Bytes -/

/-- The form encoding of a byte, as bytes. -/
def formByte (b : UInt8) : List UInt8 := Text.Utf8.encodeChars (encodeByte b)

/-- A byte of a form-encoded text, with a plus sign standing for a space. -/
def unplus (b : UInt8) : UInt8 := if b = 0x2B then 0x20 else b

theorem separators_notMem_formByte : ∀ b : UInt8, 0x26 ∉ formByte b ∧ 0x3D ∉ formByte b :=
  forall_byte (by decide +kernel)

theorem unplus_plain : ∀ b : UInt8, isPlain b = true →
    (Text.Utf8.encodeChars [Char.ofNat b.toNat]).map unplus = [b] ∧ b ≠ 0x25 :=
  forall_byte (by decide +kernel)

theorem unplus_percentByte : ∀ b : UInt8, (Text.Utf8.encodeChars (Text.percentByte b)).map unplus =
    Text.Utf8.encodeChars (Text.percentByte b) :=
  forall_byte (by decide +kernel)

/-- A byte is read back from its encoding, whatever follows. -/
theorem percentDecode_formByte (b : UInt8) (rest : List UInt8) :
    Text.percentDecode ((formByte b).map unplus ++ rest) = b :: Text.percentDecode rest := by
  rw [formByte, encodeByte]
  split
  · rename_i plain
    obtain ⟨same, hb⟩ := unplus_plain b plain
    rw [same]
    exact Text.percentDecode_cons_of_ne hb rest
  · split
    · rename_i space
      rw [space]
      exact Text.percentDecode_cons_of_ne (by decide) rest
    · rw [unplus_percentByte]
      exact Text.percentDecode_percentByte b rest

/-! ## Names and values -/

/-- The form encoding of a name or value, as bytes. -/
def formBytes (s : String) : List UInt8 := (Text.Utf8.encode s).flatMap formByte

theorem encodeChars_encodeChars (s : String) :
    Text.Utf8.encodeChars (encodeChars s) = formBytes s :=
  List.flatMap_assoc

theorem separators_notMem_formBytes (s : String) : 0x26 ∉ formBytes s ∧ 0x3D ∉ formBytes s := by
  simp only [formBytes, List.mem_flatMap, not_exists, not_and]
  exact ⟨fun b _ => (separators_notMem_formByte b).1, fun b _ => (separators_notMem_formByte b).2⟩

theorem percentDecode_flatMap_formByte (bs : List UInt8) :
    Text.percentDecode ((bs.flatMap formByte).map unplus) = bs := by
  induction bs with
  | nil => rfl
  | cons b bs ih => rw [List.flatMap_cons, List.map_append, percentDecode_formByte, ih]

/-- A name or value is read back. -/
theorem decodeBytes_formBytes (s : String) : decodeBytes (formBytes s) = s := by
  have read := percentDecode_flatMap_formByte (Text.Utf8.encode s)
  rw [decodeBytes]
  exact (congrArg Text.Utf8.decode read).trans (Text.Utf8.decode_encode s)

/-! ## Pairs -/

/-- The form encoding of a pair, as bytes. -/
def pairBytes (pair : String × String) : List UInt8 :=
  formBytes pair.1 ++ 0x3D :: formBytes pair.2

theorem encodeChars_encodePair (pair : String × String) :
    Text.Utf8.encodeChars (encodePair pair) = pairBytes pair := by
  have separator : Text.Utf8.encodeChars ['='] = [0x3D] := rfl
  rw [encodePair, List.append_cons, Text.Utf8.encodeChars_append, Text.Utf8.encodeChars_append,
    encodeChars_encodeChars, encodeChars_encodeChars, separator, pairBytes, ← List.append_cons]

theorem ampersand_notMem_pairBytes (pair : String × String) : 0x26 ∉ pairBytes pair := by
  simp [pairBytes, separators_notMem_formBytes]

theorem pairBytes_ne_nil (pair : String × String) : pairBytes pair ≠ [] :=
  List.append_ne_nil_of_right_ne_nil _ (List.cons_ne_nil _ _)

/-- The name of a pair ends at the first equals sign. -/
theorem decodePair_pairBytes (pair : String × String) : decodePair (pairBytes pair) = pair := by
  have name : ∀ b ∈ formBytes pair.1, decide (b ≠ 0x3D) = true := fun b hb =>
    decide_eq_true fun e => (separators_notMem_formBytes pair.1).2 (e ▸ hb)
  have before : (pairBytes pair).takeWhile (· ≠ 0x3D) = formBytes pair.1 := by
    rw [pairBytes, List.takeWhile_append_of_pos name]
    simp
  have after : (pairBytes pair).dropWhile (· ≠ 0x3D) = 0x3D :: formBytes pair.2 := by
    rw [pairBytes, List.dropWhile_append_of_pos name]
    simp
  rw [decodePair, before, after, List.drop_succ_cons, List.drop_zero, decodeBytes_formBytes,
    decodeBytes_formBytes]

/-! ## Queries -/

theorem encodeChars_intercalate (ls : List (List Char)) :
    Text.Utf8.encodeChars (['&'].intercalate ls) =
      [0x26].intercalate (ls.map Text.Utf8.encodeChars) := by
  have separator : Text.Utf8.encodeChars ['&'] = [0x26] := rfl
  induction ls with
  | nil => rfl
  | cons l ls ih =>
    cases ls with
    | nil => simp
    | cons m ls =>
      rw [List.intercalate_cons_cons, Text.Utf8.encodeChars_append,
        Text.Utf8.encodeChars_append, ih, separator]
      simp only [List.map_cons, List.intercalate_cons_cons]

theorem encode_toQuery (params : Params) :
    Text.Utf8.encode params.toQuery = [0x26].intercalate (params.pairs.map pairBytes) := by
  rw [Text.Utf8.encode, toQuery, String.toList_ofList, encodeChars_intercalate, List.map_map]
  congr 2
  exact funext encodeChars_encodePair

/-- Parameters are read back from their query, in their order. -/
theorem ofQuery_toQuery (params : Params) : ofQuery params.toQuery = params := by
  obtain ⟨pairs⟩ := params
  have pieces : (([0x26].intercalate (pairs.map pairBytes)).splitOn 0x26).filter (!·.isEmpty) =
      pairs.map pairBytes := by
    have filled : ∀ piece ∈ pairs.map pairBytes, (!piece.isEmpty) = true := fun piece hp => by
      obtain ⟨pair, -, rfl⟩ := List.mem_map.1 hp
      simp [pairBytes_ne_nil]
    cases pairs with
    | nil => rfl
    | cons pair pairs =>
      rw [List.splitOn_intercalate 0x26, List.filter_eq_self.2 filled]
      · intro piece hp
        obtain ⟨pair, -, rfl⟩ := List.mem_map.1 hp
        exact ampersand_notMem_pairBytes pair
      · simp
  have read : decodePair ∘ pairBytes = id := funext decodePair_pairBytes
  rw [ofQuery, encode_toQuery, pieces, List.map_map, read, List.map_id]

end MapGate.Params
