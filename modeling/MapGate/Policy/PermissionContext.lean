import MapGate.Policy.Grants
import MapGate.Policy.User

/-!
# The permissions of one request

A context holds the roles that apply to the user of a request and remembers
what it has looked up. What it remembers agrees with what the roles grant, so
a lookup answers the same whether it is the first or not.
-/

namespace MapGate

/-- The applicable roles with the answers given so far. -/
structure PermissionContext where
  roles : List Role
  layerCache : NameMap Flags
  attributeCache : NameMap (NameMap Flags)
  topicCache : Option NameSet
  layer_cached : ∀ layer flags, layerCache[layer]? = some flags →
    flags = Grants.layerFlags roles layer
  attribute_cached : ∀ layer flags, attributeCache[layer]? = some flags →
    flags = Grants.attributesFlags roles layer
  topic_cached : ∀ topics, topicCache = some topics → topics = Grants.topics roles

namespace PermissionContext

/-- The context of some roles that remembers nothing. -/
def ofRoles (roles : List Role) : PermissionContext where
  roles
  layerCache := ∅
  attributeCache := ∅
  topicCache := none
  layer_cached := by simp
  attribute_cached := by simp
  topic_cached := by simp

/-- A new context of the roles that apply to a user. -/
def ofUser (user : User) (roles : List Role) : PermissionContext :=
  ofRoles (applicableRoles user roles)

/-- Whether any role applies. -/
def hasRoles (context : PermissionContext) : Bool := !context.roles.isEmpty

/-- The names of the roles that apply. -/
def roleNames (context : PermissionContext) : List String := context.roles.map (·.name)

/-- The flags of a layer. -/
def layerFlags (context : PermissionContext) (layer : String) : Flags × PermissionContext :=
  match context.layerCache[layer]? with
  | some flags => (flags, context)
  | none =>
    (Grants.layerFlags context.roles layer,
      { context with
        layerCache := context.layerCache.insert layer (Grants.layerFlags context.roles layer)
        layer_cached := by
          intro other flags h
          rw [Std.TreeMap.getElem?_insert] at h
          split at h
          · rename_i e
            rw [← Std.LawfulEqCmp.eq_of_compare e]
            exact (Option.some.inj h).symm
          · exact context.layer_cached other flags h })

/-- The flags of the attributes of a layer. -/
def attributesFlags (context : PermissionContext) (layer : String) :
    NameMap Flags × PermissionContext :=
  match context.attributeCache[layer]? with
  | some flags => (flags, context)
  | none =>
    (Grants.attributesFlags context.roles layer,
      { context with
        attributeCache :=
          context.attributeCache.insert layer (Grants.attributesFlags context.roles layer)
        attribute_cached := by
          intro other flags h
          rw [Std.TreeMap.getElem?_insert] at h
          split at h
          · rename_i e
            rw [← Std.LawfulEqCmp.eq_of_compare e]
            exact (Option.some.inj h).symm
          · exact context.attribute_cached other flags h })

/-- The flags of one attribute. -/
def attributeFlags (context : PermissionContext) (layer attr : String) :
    Flags × PermissionContext :=
  let (flags, context) := context.attributesFlags layer
  (flags.getD attr ∅, context)

/-- The topics of the user. -/
def topics (context : PermissionContext) : NameSet × PermissionContext :=
  match context.topicCache with
  | some topics => (topics, context)
  | none =>
    (Grants.topics context.roles,
      { context with
        topicCache := some (Grants.topics context.roles)
        topic_cached := fun _ h => (Option.some.inj h).symm })

@[simp] theorem roles_layerFlags (context : PermissionContext) (layer : String) :
    (context.layerFlags layer).2.roles = context.roles := by
  unfold layerFlags; split <;> rfl

@[simp] theorem fst_layerFlags (context : PermissionContext) (layer : String) :
    (context.layerFlags layer).1 = Grants.layerFlags context.roles layer := by
  unfold layerFlags
  split
  · rename_i h
    exact context.layer_cached layer _ h
  · rfl

@[simp] theorem roles_attributesFlags (context : PermissionContext) (layer : String) :
    (context.attributesFlags layer).2.roles = context.roles := by
  unfold attributesFlags; split <;> rfl

@[simp] theorem fst_attributesFlags (context : PermissionContext) (layer : String) :
    (context.attributesFlags layer).1 = Grants.attributesFlags context.roles layer := by
  unfold attributesFlags
  split
  · rename_i h
    exact context.attribute_cached layer _ h
  · rfl

@[simp] theorem roles_attributeFlags (context : PermissionContext) (layer attr : String) :
    (context.attributeFlags layer attr).2.roles = context.roles :=
  roles_attributesFlags context layer

@[simp] theorem fst_attributeFlags (context : PermissionContext) (layer attr : String) :
    (context.attributeFlags layer attr).1 =
      Grants.attributeFlags context.roles layer attr := by
  simp only [attributeFlags, fst_attributesFlags, Grants.attributeFlags]

@[simp] theorem roles_topics (context : PermissionContext) :
    context.topics.2.roles = context.roles := by
  unfold topics; split <;> rfl

@[simp] theorem fst_topics (context : PermissionContext) :
    context.topics.1 = Grants.topics context.roles := by
  unfold topics
  split
  · rename_i h
    exact context.topic_cached _ h
  · rfl

end PermissionContext

end MapGate
