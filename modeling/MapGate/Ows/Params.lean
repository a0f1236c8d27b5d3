import MapGate.Text.Ascii
import MapGate.Text.List
import MapGate.Text.Percent

/-!
# Request parameters

The parameters of a map service request are name and value pairs in the order
of the request. The case of letters in a name does not matter, and a name may
occur more than once. In a query string the pairs are form-encoded.
-/

namespace MapGate

/-- The parameters of a request in their order. -/
structure Params where
  pairs : List (String × String)
  deriving DecidableEq

namespace Params

/-- No parameters. -/
def empty : Params := ⟨[]⟩

/-- Whether a pair carries a parameter of the given name. -/
def named (name : String) (pair : String × String) : Bool := Text.sameName pair.1 name

/-- The first value of a parameter. -/
def get? (params : Params) (name : String) : Option String :=
  (params.pairs.find? (named name)).map (·.2)

/-- Whether a parameter occurs. -/
def contains (params : Params) (name : String) : Bool := (params.get? name).isSome

/-- How often a parameter occurs. -/
def count (params : Params) (name : String) : Nat := params.pairs.countP (named name)

/-- The parameters without those of the given name. -/
def remove (params : Params) (name : String) : Params :=
  ⟨params.pairs.filter (!named name ·)⟩

/-- The pairs with all of the given name replaced by one pair, which stands
where the first of them stood, or last if there was none. -/
def setPairs (name value : String) : List (String × String) → List (String × String)
  | [] => [(name, value)]
  | pair :: pairs =>
    if named name pair then (name, value) :: pairs.filter (!named name ·)
    else pair :: setPairs name value pairs

/-- The parameters with one value for the given name. -/
def set (params : Params) (name value : String) : Params :=
  ⟨setPairs name value params.pairs⟩

/-- The pairs whose name satisfies `p`. -/
def filterNames (params : Params) (p : String → Bool) : List (String × String) :=
  params.pairs.filter fun pair => p pair.1

/-! ## Form encoding -/

/-- Whether a byte stands for itself in a form-encoded text. -/
def isPlain (b : UInt8) : Bool :=
  (0x30 ≤ b && b ≤ 0x39) || (0x41 ≤ b && b ≤ 0x5A) || (0x61 ≤ b && b ≤ 0x7A) ||
    b == 0x2A || b == 0x2D || b == 0x2E || b == 0x5F

/-- A byte in form encoding; a space is written as a plus sign. -/
def encodeByte (b : UInt8) : List Char :=
  if isPlain b then [Char.ofNat b.toNat]
  else if b = 0x20 then ['+']
  else Text.percentByte b

/-- A name or value in form encoding. -/
def encodeChars (s : String) : List Char := (Text.Utf8.encode s).flatMap encodeByte

/-- A pair in form encoding. -/
def encodePair (pair : String × String) : List Char :=
  encodeChars pair.1 ++ '=' :: encodeChars pair.2

/-- The query string of the parameters. -/
def toQuery (params : Params) : String :=
  String.ofList (['&'].intercalate (params.pairs.map encodePair))

/-- The name or value that form-encoded bytes stand for. -/
def decodeBytes (bs : List UInt8) : String :=
  Text.Utf8.decode (Text.percentDecode (bs.map fun b => if b = 0x2B then 0x20 else b))

/-- The pair that a piece of a query stands for. A piece without an equals sign
is a name with an empty value. -/
def decodePair (piece : List UInt8) : String × String :=
  (decodeBytes (piece.takeWhile (· ≠ 0x3D)),
    decodeBytes ((piece.dropWhile (· ≠ 0x3D)).drop 1))

/-- The parameters of a query string. Empty pieces between ampersands do not
count. -/
def ofQuery (query : String) : Params :=
  ⟨(((Text.Utf8.encode query).splitOn 0x26).filter (!·.isEmpty)).map decodePair⟩

end Params

end MapGate
