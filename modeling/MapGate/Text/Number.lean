import MapGate.Text.Percent

/-!
# Numbers in digits

Reading and writing of whole numbers in a base up to sixteen.
-/

namespace MapGate.Text

/-- The value of a digit in some base. -/
def digit? (base : Nat) (c : Char) : Option Nat := (hexValue? c).filter (· < base)

/-- The number read so far with one more digit. -/
def addDigit? (base n : Nat) (c : Char) : Option Nat := (digit? base c).map (n * base + ·)

/-- The number that some digits stand for. There has to be a digit, and nothing
but digits. -/
def number? (base : Nat) (l : List Char) : Option Nat :=
  if l.isEmpty then none else l.foldlM (addDigit? base) 0

/-- The number that decimal digits stand for, without needless zeros in front. -/
def plainNumber? (l : List Char) : Option Nat :=
  if 1 < l.length && l.head? = some '0' then none else number? 10 l

end MapGate.Text
