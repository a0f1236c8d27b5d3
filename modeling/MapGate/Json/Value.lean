import MapGate.Json.Binary64

/-!
# JSON values

Values as they are exchanged and logged. The members of an object come in the
order of the text. In the sorted form of a value the keys of every object are
in ascending order and each occurs once.
-/

namespace MapGate

/-- A JSON value. Whole numbers are kept exactly. -/
inductive Json where
  | null
  | bool (b : Bool)
  | integer (n : Int)
  | decimal (isNegative : Bool) (magnitude : Binary64)
  | string (s : String)
  | array (items : List Json)
  | object (members : List (String × Json))

namespace Json

/-- The value of a key; of a key that occurs several times, the last value. -/
def get? (key : String) : Json → Option Json
  | object members => (members.reverse.find? (·.1 == key)).map (·.2)
  | _ => none

/-- Puts a member at its place among members with ascending keys; a member of
the same key is replaced. -/
def insertMember (key : String) (value : Json) : List (String × Json) → List (String × Json)
  | [] => [(key, value)]
  | (k, v) :: members =>
    if key < k then (key, value) :: (k, v) :: members
    else if key = k then (key, value) :: members
    else (k, v) :: insertMember key value members

/-- The object with the given members, sorted by key. -/
def ofMembers (members : List (String × Json)) : Json :=
  object (members.foldl (fun sorted (key, value) => insertMember key value sorted) [])

mutual

/-- A value with the members of all objects in it sorted. -/
def sorted : Json → Json
  | array items => array (sortedItems items)
  | object members => ofMembers (sortedMembers members)
  | value => value

/-- Some values, each with its members sorted. -/
def sortedItems : List Json → List Json
  | [] => []
  | value :: values => value.sorted :: sortedItems values

/-- Some members, the members in each value sorted. -/
def sortedMembers : List (String × Json) → List (String × Json)
  | [] => []
  | (key, value) :: members => (key, value.sorted) :: sortedMembers members

end

mutual

/-- How deep arrays and objects are nested. -/
def depth : Json → Nat
  | array items => depthItems items + 1
  | object members => depthMembers members + 1
  | _ => 0

/-- The greatest depth of some values. -/
def depthItems : List Json → Nat
  | [] => 0
  | value :: values => max value.depth (depthItems values)

/-- The greatest depth of the values of some members. -/
def depthMembers : List (String × Json) → Nat
  | [] => 0
  | (_, value) :: members => max value.depth (depthMembers members)

end

end Json

end MapGate
