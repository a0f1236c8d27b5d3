import Mathlib.Data.List.Forall2
import MapGate.Policy.PermissionContext
import MapGate.Proofs.Policy.Grants

/-!
# Lookups in one context

What a permission context remembers does not show. A lookup keeps the roles and gives
what a new context of these roles gives (`fst_ask`, `roles_ask`), so a run of lookups,
in whatever order, gives one by one what new contexts give (`fst_askAll`). Each answer
says of layers, attributes and topics what one of the roles says (`Lookup.Told`).
-/

namespace MapGate

/-! ## What roles say -/

/-- A role gives a layer a tag. -/
def Role.GivesLayer (role : Role) (layer tag : String) : Prop :=
  ∃ flags, role.layers[layer]? = some flags ∧ flags.has tag

/-- A role lists an attribute of a layer, if only with an empty set of tags. -/
def Role.ListsAttribute (role : Role) (layer attr : String) : Prop :=
  ∃ attributes, role.attributes[layer]? = some attributes ∧ attr ∈ attributes

/-- A role gives an attribute of a layer a tag. -/
def Role.GivesAttribute (role : Role) (layer attr tag : String) : Prop :=
  ∃ attributes flags, role.attributes[layer]? = some attributes ∧ attributes[attr]? = some flags ∧
    flags.has tag

/-! ## Lookups -/

/-- What can be looked up in a permission context. -/
inductive Lookup where
  | layerFlags (layer : String)
  | attributesFlags (layer : String)
  | attributeFlags (layer attr : String)
  | topics

/-- What a lookup gives. -/
inductive Lookup.Answer where
  | flags (flags : Flags)
  | attributes (attributes : NameMap Flags)
  | topics (topics : NameSet)

/-- An answer says what some roles say together, and nothing about the layer ID that
stands for unknown layers. -/
inductive Lookup.Told (roles : List Role) : Lookup → Answer → Prop where
  | layerFlags {layer : String} {flags : Flags}
    (tags : ∀ tag, flags.has tag ↔
      layer ≠ unknownLayer ∧ ∃ role ∈ roles, role.GivesLayer layer tag) :
    Told roles (.layerFlags layer) (.flags flags)
  | attributesFlags {layer : String} {attributes : NameMap Flags}
    (entries : ∀ attr, attr ∈ attributes ↔
      layer ≠ unknownLayer ∧ ∃ role ∈ roles, role.ListsAttribute layer attr)
    (tags : ∀ attr flags, attributes[attr]? = some flags → ∀ tag, flags.has tag ↔
      layer ≠ unknownLayer ∧ ∃ role ∈ roles, role.GivesAttribute layer attr tag) :
    Told roles (.attributesFlags layer) (.attributes attributes)
  | attributeFlags {layer attr : String} {flags : Flags}
    (tags : ∀ tag, flags.has tag ↔
      layer ≠ unknownLayer ∧ ∃ role ∈ roles, role.GivesAttribute layer attr tag) :
    Told roles (.attributeFlags layer attr) (.flags flags)
  | topics {topics : NameSet}
    (members : ∀ topic, topic ∈ topics ↔ ∃ role ∈ roles, topic ∈ role.topics) :
    Told roles .topics (.topics topics)

/-- What a lookup gives under some roles. -/
def Lookup.answer (roles : List Role) : Lookup → Answer
  | layerFlags layer => .flags (Grants.layerFlags roles layer)
  | attributesFlags layer => .attributes (Grants.attributesFlags roles layer)
  | attributeFlags layer attr => .flags (Grants.attributeFlags roles layer attr)
  | topics => .topics (Grants.topics roles)

theorem Lookup.told_answer (roles : List Role) (lookup : Lookup) :
    lookup.Told roles (lookup.answer roles) := by
  cases lookup with
  | layerFlags layer => exact .layerFlags fun tag => Grants.has_layerFlags
  | attributesFlags layer =>
    refine .attributesFlags (fun attr => Grants.mem_attributesFlags) fun attr flags found tag => ?_
    have same : Grants.attributeFlags roles layer attr = flags := by
      rw [Grants.attributeFlags, Std.TreeMap.getD_eq_getD_getElem?, found, Option.getD_some]
    rw [← same]
    exact Grants.has_attributeFlags
  | attributeFlags layer attr => exact .attributeFlags fun tag => Grants.has_attributeFlags
  | topics => exact .topics fun topic => Grants.mem_topics

namespace PermissionContext

variable {context : PermissionContext}

/-- Looks something up. -/
def ask (context : PermissionContext) : Lookup → Lookup.Answer × PermissionContext
  | .layerFlags layer => (context.layerFlags layer).map .flags id
  | .attributesFlags layer => (context.attributesFlags layer).map .attributes id
  | .attributeFlags layer attr => (context.attributeFlags layer attr).map .flags id
  | .topics => context.topics.map .topics id

/-- Looks one thing up after the other. -/
def askAll (context : PermissionContext) : List Lookup → List Lookup.Answer × PermissionContext
  | [] => ([], context)
  | lookup :: lookups =>
    let (answer, context) := context.ask lookup
    let (answers, context) := context.askAll lookups
    (answer :: answers, context)

/-- A lookup gives what the roles say, whatever was looked up before. -/
theorem fst_ask (context : PermissionContext) (lookup : Lookup) :
    (context.ask lookup).1 = lookup.answer context.roles := by
  cases lookup <;> simp [ask, Lookup.answer]

theorem roles_ask (context : PermissionContext) (lookup : Lookup) :
    (context.ask lookup).2.roles = context.roles := by
  cases lookup <;> simp [ask]

/-- Each lookup of a run gives what the roles say. -/
theorem fst_askAll (context : PermissionContext) (lookups : List Lookup) :
    (context.askAll lookups).1 = lookups.map (·.answer context.roles) := by
  induction lookups generalizing context with
  | nil => rfl
  | cons lookup lookups ih =>
    have rest := ih (context.ask lookup).2
    rw [roles_ask] at rest
    rw [askAll, List.map_cons, ← fst_ask, ← rest]

/-- However a context is asked, each answer is the one that a new context of the same
user and roles gives, and it says what the roles say that apply to the user. -/
theorem askAll_memoryless (user : User) (roles : List Role) (lookups : List Lookup) :
    ((ofUser user roles).askAll lookups).1 =
        lookups.map (fun lookup => ((ofUser user roles).ask lookup).1) ∧
      List.Forall₂ (Lookup.Told (applicableRoles user roles)) lookups
        ((ofUser user roles).askAll lookups).1 := by
  have same : (ofUser user roles).roles = applicableRoles user roles := rfl
  constructor
  · rw [fst_askAll]
    exact List.map_congr_left fun lookup _ => (fst_ask _ lookup).symm
  · rw [fst_askAll, same, List.forall₂_map_right_iff, List.forall₂_same]
    exact fun lookup _ => Lookup.told_answer _ lookup

end PermissionContext

end MapGate
