import MapGate.Text.Utf8

/-!
# Texts and lines in bytes

The bytes of a text, and no others, are read back as that text (`fromUTF8?_eq_some_iff`).
A text of characters that are no control characters has no line feed among its bytes
(`lineFeed_notMem`), so the lines of a file are its pieces between line feeds
(`splitOn_lines`, `splitOn_append_lines`).
-/

namespace MapGate.Text

theorem fromUTF8?_toUTF8 (s : String) : String.fromUTF8? s.toUTF8 = some s :=
  dif_pos s.isValidUTF8

theorem fromUTF8?_eq_some_iff {bytes : ByteArray} {s : String} :
    String.fromUTF8? bytes = some s ↔ s.toUTF8 = bytes := by
  constructor
  · intro read
    rw [String.fromUTF8?] at read
    split at read
    · cases read
      rfl
    · cases read
  · rintro rfl
    exact fromUTF8?_toUTF8 s

/-- The byte that ends a line. -/
def lineFeed : UInt8 := 0x0A

/-- The bytes of a text. -/
def bytes (s : String) : List UInt8 := s.toUTF8.data.toList

theorem bytes_ofList (l : List Char) : bytes (String.ofList l) = l.flatMap String.utf8EncodeChar := by
  rw [bytes, String.toUTF8_eq_toByteArray, String.toByteArray_ofList, List.utf8Encode,
    List.data_toByteArray]

theorem bytes_append (s t : String) : bytes (s ++ t) = bytes s ++ bytes t := by
  rw [bytes, String.toUTF8_eq_toByteArray, String.toByteArray_append, ByteArray.data_append,
    Array.toList_append]
  rfl

/-- Only a line feed is written with its byte. -/
theorem lineFeed_notMem_char {c : Char} (h : 0x20 ≤ c.toNat) :
    lineFeed ∉ String.utf8EncodeChar c := by
  have plain : 0x20 ≤ c.val.toNat := h
  have value : ∀ n, lineFeed = UInt8.ofNat n → n % 256 = 0x0A := by
    intro n e
    have := congrArg UInt8.toNat e
    rw [UInt8.toNat_ofNat'] at this
    exact this.symm
  intro feed
  rw [String.utf8EncodeChar] at feed
  repeat' split at feed
  all_goals
    simp only [List.mem_cons, List.not_mem_nil, or_false] at feed
  · have := value _ feed
    omega
  · rcases feed with feed | feed <;>
    · have := value _ feed
      omega
  · rcases feed with feed | feed | feed <;>
    · have := value _ feed
      omega
  · rcases feed with feed | feed | feed | feed <;>
    · have := value _ feed
      omega

theorem lineFeed_notMem {s : String} (h : ∀ c ∈ s.toList, 0x20 ≤ c.toNat) : lineFeed ∉ bytes s := by
  rw [← String.ofList_toList (s := s), bytes_ofList, List.mem_flatMap]
  rintro ⟨c, hc, feed⟩
  exact lineFeed_notMem_char (h c hc) feed

theorem bytes_lineEnd (s : String) : bytes (s ++ "\n") = bytes s ++ [lineFeed] := by
  rw [bytes_append]
  rfl

/-- Lines with their ends are cut at the line feeds, and nothing is left. -/
theorem splitOn_lines {lines : List (List UInt8)} (h : ∀ line ∈ lines, lineFeed ∉ line) :
    (lines.flatMap (· ++ [lineFeed])).splitOn lineFeed = lines ++ [[]] := by
  induction lines with
  | nil => rfl
  | cons line lines ih =>
    obtain ⟨first, others⟩ := List.forall_mem_cons.1 h
    rw [List.flatMap_cons, List.append_assoc, List.singleton_append,
      List.splitOn_append_cons_self_of_not_mem first, ih others, List.cons_append]

/-- What follows some bytes starts a new line. -/
def AtLineStart (l : List UInt8) : Prop := l = [] ∨ l.getLast? = some lineFeed

/-- Lines that are written at the start of a line come after those before. -/
theorem splitOn_append_lines {l : List UInt8} {lines : List (List UInt8)} (start : AtLineStart l)
    (h : ∀ line ∈ lines, lineFeed ∉ line) :
    (l ++ lines.flatMap (· ++ [lineFeed])).splitOn lineFeed =
      (l.splitOn lineFeed).dropLast ++ lines ++ [[]] := by
  rcases start with rfl | ended
  · exact splitOn_lines h
  · obtain ⟨l, rfl⟩ := List.getLast?_eq_some_iff.1 ended
    rw [List.append_assoc, List.singleton_append, List.splitOn_append_cons_self,
      List.splitOn_append_cons_self, splitOn_lines h, List.splitOn_nil, List.dropLast_concat,
      List.append_assoc]

end MapGate.Text
