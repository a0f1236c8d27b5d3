import MapGate.Policy.Access
import MapGate.Xml.Fault

/-!
# Why a request is turned away

Each refusal has a cause. The client learns only the kind of a refusal; its
detail, which may name layers and attributes, is for the audit trail.
-/

namespace MapGate

/-- Why a request is not permitted. -/
inductive Denial where
  /-- A parameter with the given alternative names occurs more than once. -/
  | repeatedParameter (names : List String)
  | layerLacks (layer flag : String)
  | attributeLacks (attr layer flag : String)
  /-- The client brings a style of its own, which could name any layer. -/
  | clientStyle
  | transactionInParameters
  | unsupportedChild (name : String)
  | joinedLayers (typeName : String)
  | noAttributeSelected (typeName : String)
  | noViewableAttribute (typeName : String)
  | noLayerNamed
  | unsupportedOperation (name : String)
  | access (reason : AccessDenial)
  /-- A reason that is given in words. -/
  | stated (reason : String)
  deriving DecidableEq

/-- The words for a denial. -/
def Denial.message : Denial → String
  | repeatedParameter names =>
    "parameter '" ++ "/".intercalate names ++ "' given more than once"
  | layerLacks layer flag => s!"layer '{layer}' lacks '{flag}'"
  | attributeLacks attr layer flag => s!"attribute '{attr}' of layer '{layer}' lacks '{flag}'"
  | clientStyle => "client-supplied SLD"
  | transactionInParameters => "transactions are only accepted as XML documents"
  | unsupportedChild name => s!"GetFeature child '{name}' is not supported"
  | joinedLayers typeName => s!"query joins several layers: '{typeName}'"
  | noAttributeSelected typeName => s!"query on layer '{typeName}' selects no attribute"
  | noViewableAttribute typeName => s!"layer '{typeName}' has no viewable attribute"
  | noLayerNamed => "GetFeature names no layer"
  | unsupportedOperation name => s!"transaction operation '{name}' is not permitted"
  | access reason => reason.message
  | stated reason => reason

/-- Why a request makes no sense. -/
inductive Malformation where
  | document (fault : Xml.Fault)
  | noQuery
  /-- An element that has to name a layer does not; `element` is its name. -/
  | noTypeName (element : String)
  /-- One list of properties stands for several type names. -/
  | ungroupedProperties
  | unbalancedProperties
  | propertyGroupCount (groups typeNames : Nat)
  | noOperation
  | unnamedProperty
  | noFeatures
  /-- A reason that is given in words. -/
  | stated (reason : String)
  deriving DecidableEq

/-- The words for a malformation. -/
def Malformation.message : Malformation → String
  | document fault => fault.message
  | noQuery => "GetFeature contains no Query"
  | noTypeName element => s!"{element} without typeName"
  | ungroupedProperties => "PROPERTYNAME must hold one parenthesized list per type name"
  | unbalancedProperties => "unbalanced PROPERTYNAME list"
  | propertyGroupCount groups typeNames =>
    s!"PROPERTYNAME has {groups} lists for {typeNames} type names"
  | noOperation => "transaction contains no operation"
  | unnamedProperty => "Update property without a name"
  | noFeatures => "Insert without features"
  | stated reason => reason

/-- Why a request does not get an answer of the renderer. -/
inductive GateError where
  | denied (denial : Denial)
  | projectNotFound (project : String)
  | malformed (malformation : Malformation)
  | tooLarge
  | rendererFailed (reason : String)
  | settingsUnavailable (reason : String)
  deriving DecidableEq

namespace GateError

/-- The message of an error, which does not tell why access was denied. -/
def message : GateError → String
  | denied _ => "access denied"
  | projectNotFound _ => "project not found"
  | malformed malformation => s!"malformed request body: {malformation.message}"
  | tooLarge => "request body too large"
  | rendererFailed reason => s!"renderer request failed: {reason}"
  | settingsUnavailable reason => s!"project metadata unavailable: {reason}"

/-- All that is known about an error. -/
def detail : GateError → String
  | denied denial => denial.message
  | e => e.message

/-- The status code of the answer. -/
def status : GateError → Nat
  | denied _ => 403
  | projectNotFound _ => 404
  | malformed _ => 400
  | tooLarge => 413
  | rendererFailed _ => 502
  | settingsUnavailable _ => 500

/-- The phrase that goes with the status code, which is all the client is
told. -/
def publicMessage : GateError → String
  | denied _ => "Forbidden"
  | projectNotFound _ => "Not Found"
  | malformed _ => "Bad Request"
  | tooLarge => "Payload Too Large"
  | rendererFailed _ => "Bad Gateway"
  | settingsUnavailable _ => "Internal Server Error"

end GateError

end MapGate
