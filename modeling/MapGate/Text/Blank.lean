/-!
# Blank characters and trimming

A character is blank if it has the Unicode property `White_Space`. `trim`
removes the blanks at both ends of a text and keeps those inside it.
-/

namespace MapGate.Text

/-- The characters with the Unicode property `White_Space`. -/
def isBlank (c : Char) : Bool :=
  let n := c.toNat
  (0x09 ≤ n && n ≤ 0x0D) || n == 0x20 || n == 0x85 || n == 0xA0 || n == 0x1680 ||
    (0x2000 ≤ n && n ≤ 0x200A) || n == 0x2028 || n == 0x2029 || n == 0x202F ||
    n == 0x205F || n == 0x3000

/-- The characters from the first that is not blank. -/
def trimLeftChars (l : List Char) : List Char := l.dropWhile isBlank

/-- The characters up to the last that is not blank. -/
def trimRightChars (l : List Char) : List Char := (l.reverse.dropWhile isBlank).reverse

/-- The characters between the first and the last that are not blank. -/
def trimChars (l : List Char) : List Char := trimRightChars (trimLeftChars l)

/-- A text without the blanks at its ends. -/
def trim (s : String) : String := String.ofList (trimChars s.toList)

/-- A text of blanks only; the empty text is one. -/
def isBlankText (s : String) : Bool := s.toList.all isBlank

@[simp] theorem toList_trim (s : String) : (trim s).toList = trimChars s.toList :=
  String.toList_ofList

end MapGate.Text
