import MapGate.Gate.Selection
import MapGate.Ows.Params

/-!
# Feature queries in parameters

`TYPENAMES`, or else `TYPENAME`, lists the layers of a query. `PROPERTYNAME`
lists the properties: a plain comma list where there is one layer, and one list
in parentheses for each layer otherwise.
-/

namespace MapGate

namespace FeatureQuery

/-- The layers that parameters ask for. -/
def typeNames (params : Params) : List String :=
  match params.get? "TYPENAMES" <|> params.get? "TYPENAME" with
  | some list => Text.entries list
  | none => []

/-- What stands between the parentheses around a list. -/
def insideParentheses? (l : List Char) : Option (List Char) :=
  match l with
  | '(' :: l => if l.getLast? = some ')' then some l.dropLast else none
  | _ => none

/-- The lists of properties for a number of type names. -/
def propertyGroups (value? : Option String) (count : Nat) :
    Except Malformation (List (List String)) :=
  let value := Text.trimChars (value?.getD "").toList
  match value with
  | [] => .ok (List.replicate count [])
  | '(' :: _ =>
    match insideParentheses? value with
    | none => .error .unbalancedProperties
    | some inside =>
      let groups := (Text.splitOnText ")(" (String.ofList inside)).map Text.entries
      if groups.length = count then .ok groups
      else .error (.propertyGroupCount groups.length count)
  | _ =>
    if count = 1 then .ok [Text.entries (String.ofList value)] else .error .ungroupedProperties

/-- A list of properties with a comma between them. -/
def commaList (properties : List String) : String := ",".intercalate properties

/-- The value that gives each type name its list of properties. -/
def renderGroups : List (List String) → String
  | [group] => commaList group
  | groups => String.join (groups.map fun group => "(" ++ commaList group ++ ")")

end FeatureQuery

namespace Check

/-- Decides what one layer of a query may be asked for. -/
def featureGroup (index : LayerIndex) (typeName : String) (requested : List String) :
    Check Selection := do
  let id ← requireLayer index typeName .query
  selectProperties id typeName requested

/-- Checks a feature query in parameters, and tells what becomes of them and
whether they change. -/
def getFeatureParams (index : LayerIndex) (params : Params) : Check (Params × Bool) := do
  let typeNames := FeatureQuery.typeNames params
  require (!typeNames.isEmpty) (.denied .noLayerNamed)
  let groups ← ofExcept ((FeatureQuery.propertyGroups (params.get? "PROPERTYNAME")
    typeNames.length).mapError .malformed)
  let selections ← (typeNames.zip groups).mapM fun (typeName, requested) =>
    return (requested, ← featureGroup index typeName requested)
  if selections.any (·.2.isNarrowed) then
    let lists := selections.map fun (requested, selection) => selection.properties requested
    return (params.set "PROPERTYNAME" (FeatureQuery.renderGroups lists), true)
  else return (params, false)

end Check

end MapGate
