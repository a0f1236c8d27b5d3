/-!
# Binary fractions of 64 bits

Numbers that are not whole are kept as binary fractions with 53 bits. Reading
rounds to the nearest of them, a tie to the even one. Writing takes the fewest
digits that lead back to the same fraction, and of those the nearest.
-/

namespace MapGate

/-- The number `mantissa * 2 ^ exponent`, without its sign. -/
structure Binary64 where
  mantissa : Nat
  exponent : Int
  deriving DecidableEq

namespace Binary64

/-- A positive rational as numerator and denominator, times a power of a base. -/
def scale (base num den : Nat) (power : Int) : Nat × Nat :=
  if 0 ≤ power then (num * Nat.pow base power.toNat, den)
  else (num, den * Nat.pow base (-power).toNat)

/-- The nearest whole number, a tie to the even one. -/
def roundHalfEven (num den : Nat) : Nat :=
  let down := num / den
  let twice := 2 * (num % den)
  if twice < den ∨ (twice = den ∧ down % 2 = 0) then down else down + 1

/-- The greatest power of two that is no more than a positive rational. -/
def log2 (num den : Nat) : Int :=
  let guess : Int := num.log2 - den.log2
  let (n, d) := scale 2 num den (-guess)
  if d ≤ n then guess else guess - 1

/-- The fraction nearest to a rational, if it is not too great. -/
def round? (num den : Nat) : Option Binary64 :=
  if num = 0 then some ⟨0, 0⟩
  else
    let exponent := max (log2 num den - 52) (-1074)
    let (n, d) := scale 2 num den (-exponent)
    let mantissa := roundHalfEven n d
    let result : Binary64 :=
      if mantissa = Nat.pow 2 53 then ⟨Nat.pow 2 52, exponent + 1⟩ else ⟨mantissa, exponent⟩
    if 971 < result.exponent then none else some result

/-- The fraction as numerator and denominator. -/
def toRatio (x : Binary64) : Nat × Nat := scale 2 x.mantissa 1 x.exponent

/-- The fraction nearest to the product of two. -/
def mul? (x y : Binary64) : Option Binary64 :=
  round? (x.toRatio.1 * y.toRatio.1) (x.toRatio.2 * y.toRatio.2)

/-- The fraction nearest to the quotient of two. -/
def div? (x y : Binary64) : Option Binary64 :=
  round? (x.toRatio.1 * y.toRatio.2) (x.toRatio.2 * y.toRatio.1)

/-- The fraction for `significand * 10 ^ power`: the significand is rounded
first, then the power, then their product or quotient. -/
def ofScientific? (significand : Nat) (power : Int) : Option Binary64 :=
  if significand = 0 then some ⟨0, 0⟩
  else do
    let x ← round? significand 1
    if 308 < power then none
    else if 0 ≤ power then x.mul? (← round? (Nat.pow 10 power.toNat) 1)
    else if -308 ≤ power then x.div? (← round? (Nat.pow 10 (-power).toNat) 1)
    else
      let x ← x.div? (← round? (Nat.pow 10 308) 1)
      if -616 ≤ power then x.div? (← round? (Nat.pow 10 (-power - 308).toNat) 1)
      else some ⟨0, 0⟩

/-- Whether `digits * 10 ^ power` is rounded to `x`. -/
def reads (x : Binary64) (digits : Nat) (power : Int) : Bool :=
  let (n, d) := scale 10 digits 1 power
  round? n d == some x

/-- The distance from `digits * 10 ^ power` to `x`, in a unit that depends on
`x` and `power` only. -/
def distance (x : Binary64) (digits : Nat) (power : Int) : Nat :=
  let (n, d) := scale 10 digits 1 power
  let (m, e) := x.toRatio
  (n * e - m * d) + (m * d - n * e)

/-- The number of digits before the point of a positive rational, or the
negative number of zeros after the point. -/
def magnitude (num den : Nat) : Int :=
  let guess : Int := log2 num den * 30103 / 100000
  let fits (k : Int) : Bool := let (n, d) := scale 10 num den (-k); n < d
  if fits (guess - 1) then guess - 1
  else if fits guess then guess
  else if fits (guess + 1) then guess + 1
  else guess + 2

/-- The digits and the power of ten of some number with the given count of
digits that reads as `x`, the nearest one if there are two. -/
def digitsOf? (x : Binary64) (count : Nat) : Option (Nat × Int) :=
  let (num, den) := x.toRatio
  let power : Int := magnitude num den - count
  let (n, d) := scale 10 num den (-power)
  let low := n / d
  let candidates := [low, low + 1].filter (x.reads · power)
  match candidates with
  | [digits] => some (digits, power)
  | [low, high] =>
    if x.distance low power < x.distance high power ∨
        (x.distance low power = x.distance high power ∧ low % 2 = 0) then some (low, power)
    else some (high, power)
  | _ => none

/-- The fewest digits that read as `x`, with their power of ten. -/
def shortest (x : Binary64) : Nat × Int :=
  if x.mantissa = 0 then (0, 0)
  else ((List.range 17).findSome? fun k => x.digitsOf? (k + 1)).getD (x.mantissa, 0)

/-- The number as it is written: with a point where that takes few zeros, and
with an exponent otherwise. -/
def render (x : Binary64) : List Char :=
  let (value, power) := x.shortest
  let digits := Nat.toDigits 10 value
  let zeros (n : Nat) : List Char := List.replicate n '0'
  let point : Int := digits.length + power
  if value = 0 then "0.0".toList
  else if 0 ≤ power ∧ point ≤ 16 then digits ++ zeros power.toNat ++ ".0".toList
  else if 0 < point ∧ point ≤ 16 then
    digits.take point.toNat ++ '.' :: digits.drop point.toNat
  else if -5 < point ∧ point ≤ 0 then "0.".toList ++ zeros (-point).toNat ++ digits
  else
    let exponent := (toString (point - 1)).toList
    match digits with
    | [d] => d :: 'e' :: exponent
    | d :: ds => d :: '.' :: ds ++ 'e' :: exponent
    | [] => []

end Binary64

end MapGate
