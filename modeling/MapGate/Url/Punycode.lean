/-!
# Punycode

A label with characters beyond ASCII is written in letters, digits and hyphens:
first its ASCII characters, then, for each other character in ascending order,
how far it is from the one before, as a number with digits of varying weight.
-/

namespace MapGate.Url.Punycode

/-- The letter or digit for a number below 36. -/
def digit (n : Nat) : Char := if n < 26 then Char.ofNat (0x61 + n) else Char.ofNat (0x30 + n - 26)

/-- The least number that needs a further digit after the digit at position
`k`. -/
def threshold (k bias : Nat) : Nat := min 26 (max 1 (k - bias))

/-- The digits of a number from position `k` on. -/
def digits (bias k n : Nat) : List Char :=
  let t := threshold k bias
  if n < t then [digit n]
  else digit (t + (n - t) % (36 - t)) :: digits bias (k + 36) ((n - t) / (36 - t))
termination_by n
decreasing_by
  rename_i h
  have h1 : 1 ≤ threshold k bias := by simp only [threshold]; omega
  have := Nat.div_le_self (n - threshold k bias) (36 - threshold k bias)
  omega

/-- Scales a distance down, counting the steps in multiples of 36. -/
def scale (n k : Nat) : Nat :=
  if 455 < n then scale (n / 35) (k + 36) else k + 36 * n / (n + 38)
termination_by n

/-- The bias after a distance; `count` characters have been written. -/
def adapt (distance count : Nat) (isFirst : Bool) : Nat :=
  let d := if isFirst then distance / 700 else distance / 2
  scale (d + d / count) 0

/-- What has been written, and what the next distance depends on. -/
structure Progress where
  written : List Char
  distance : Nat
  bias : Nat
  count : Nat

/-- Passes a character of the label on the way to the occurrences of `m`. -/
def Progress.pass (basic m : Nat) (progress : Progress) (c : Char) : Progress :=
  if c.toNat < m then { progress with distance := progress.distance + 1 }
  else if c.toNat = m then
    { written := progress.written ++ digits progress.bias 36 progress.distance
      distance := 0
      bias := adapt progress.distance (progress.count + 1) (progress.count = basic)
      count := progress.count + 1 }
  else progress

/-- Writes the occurrences of the characters `ms`, which ascend from `n` on. -/
def encodeFrom (label : List Char) (basic : Nat) : (ms : List Nat) → (n : Nat) → Progress → Progress
  | [], _, progress => progress
  | m :: ms, n, progress =>
    let start := { progress with distance := progress.distance + (m - n) * (progress.count + 1) }
    let passed := label.foldl (Progress.pass basic m) start
    encodeFrom label basic ms (m + 1) { passed with distance := passed.distance + 1 }

/-- The encoded form of a label. -/
def encode (label : List Char) : List Char :=
  let ascii := label.filter (·.toNat < 0x80)
  let others := ((label.map Char.toNat).filter (0x80 ≤ ·)).mergeSort.eraseReps
  let progress := encodeFrom label ascii.length others 0x80 ⟨[], 0, 72, ascii.length⟩
  (if ascii.isEmpty then [] else ascii ++ ['-']) ++ progress.written

end MapGate.Url.Punycode
