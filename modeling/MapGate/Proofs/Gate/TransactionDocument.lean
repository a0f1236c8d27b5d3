import MapGate.Gate.Transaction
import MapGate.Proofs.Gate.FeatureDocument

/-!
# Transactions in documents

When a `Transaction` document is accepted: it holds operations, at least one, and
each of them is acceptable (`accepts_transaction_iff`). What an operation has to
be is said for the three kinds in `UpdateAcceptable`, `InsertAcceptable` and
`DeleteAcceptable`.

A property of an update is checked by the first child that names it. Other
children that name one as well are not looked at, so that all names in an update
may be edited only if those behind the first may be, too
(`namesEditable_iff_later`).
-/

namespace MapGate

open Xml
open FeatureQuery (NamesType)

namespace Transaction

variable {roles : List Role} {index : LayerIndex} {operation feature property root : Element}
  {id name : String} {u : Unit}

/-- The children of a property that name it. -/
def nameElements (property : Element) : List Element :=
  property.elements.filter fun e => e.localName == "Name" || e.localName == "ValueReference"

/-- An element names an attribute that may be edited. -/
def NameEditable (roles : List Role) (id : String) (e : Element) : Prop :=
  PermitsAttribute roles id (Text.localName e.text) .edit

/-- A property of an update that is accepted: the first child that names it names
an attribute that may be edited. -/
def PropertyAcceptable (roles : List Role) (id : String) (property : Element) : Prop :=
  ∃ first later, nameElements property = first :: later ∧ first.text ≠ "" ∧
    NameEditable roles id first

/-- An update that is accepted: it names a layer that may be updated, and all its
properties are accepted there. -/
def UpdateAcceptable (roles : List Role) (index : LayerIndex) (operation : Element) : Prop :=
  ∃ typeName, NamesType operation typeName ∧
    PermitsLayer roles (index.resolve typeName) .update ∧
    ∀ property ∈ operation.elementsNamed "Property",
      PropertyAcceptable roles (index.resolve typeName) property

/-- A new feature that is accepted: its layer may be inserted into, and all
attributes that it has may be edited there. -/
structure FeatureAcceptable (roles : List Role) (index : LayerIndex) (feature : Element) : Prop where
  layer : PermitsLayer roles (index.resolve feature.localName) .insert
  properties : ∀ property ∈ feature.elements,
    PermitsAttribute roles (index.resolve feature.localName) (attributeOf property.localName) .edit

/-- An insertion that is accepted. -/
structure InsertAcceptable (roles : List Role) (index : LayerIndex) (operation : Element) : Prop where
  ne_nil : operation.elements ≠ []
  features : ∀ feature ∈ operation.elements, FeatureAcceptable roles index feature

/-- A deletion that is accepted: it names a layer that may be deleted from. -/
def DeleteAcceptable (roles : List Role) (index : LayerIndex) (operation : Element) : Prop :=
  ∃ typeName, NamesType operation typeName ∧ PermitsLayer roles (index.resolve typeName) .delete

/-- An operation that is accepted. -/
inductive OperationAcceptable (roles : List Role) (index : LayerIndex) (operation : Element) : Prop
  | update (named : operation.localName = "Update")
      (acceptable : UpdateAcceptable roles index operation)
  | insert (named : operation.localName = "Insert")
      (acceptable : InsertAcceptable roles index operation)
  | delete (named : operation.localName = "Delete")
      (acceptable : DeleteAcceptable roles index operation)

/-! ## One operation -/

theorem typeName_eq_ok_iff : typeName operation = .ok name ↔ NamesType operation name := by
  rw [typeName, ← FeatureQuery.typeName?_eq_some_iff]
  cases FeatureQuery.typeName? operation <;> simp

theorem propertyName_eq_ok_iff : propertyName property = .ok name ↔
    ∃ first later, nameElements property = first :: later ∧ first.text = name ∧ name ≠ "" := by
  have read : propertyName property = .ok name ↔
      ((nameElements property).head?.map (·.text)).filter (· ≠ "") = some name := by
    rw [propertyName, nameElements]
    split <;> simp only [*, Except.ok.injEq, Option.some.injEq, reduceCtorEq]
  rw [read, Option.filter_eq_some_iff, Option.map_eq_some_iff, decide_eq_true_eq]
  constructor
  · intro h
    obtain ⟨⟨first, hf, ht⟩, hne⟩ := h
    obtain ⟨later, names⟩ := List.head?_eq_some_iff.1 hf
    exact ⟨first, later, names, ht, hne⟩
  · intro h
    obtain ⟨first, later, names, ht, hne⟩ := h
    exact ⟨⟨first, List.head?_eq_some_iff.2 ⟨later, names⟩, ht⟩, hne⟩

theorem eval_updateOperation_iff : (Check.updateOperation index operation).eval roles = .ok u ↔
    UpdateAcceptable roles index operation := by
  have named : ∀ id property, (∃ name, propertyName property = .ok name ∧
      PermitsAttribute roles id (attributeOf name) .edit) ↔ PropertyAcceptable roles id property := by
    intro id property
    simp only [propertyName_eq_ok_iff]
    constructor
    · intro h
      obtain ⟨_, ⟨first, later, e, rfl, hne⟩, hp⟩ := h
      exact ⟨first, later, e, hne, by rwa [FeatureQuery.attributeOf_text] at hp⟩
    · intro h
      obtain ⟨first, later, e, hne, hp⟩ := h
      exact ⟨_, ⟨first, later, e, rfl, hne⟩, by rwa [FeatureQuery.attributeOf_text]⟩
  simp only [Check.updateOperation, Check.eval_bind_iff, Check.eval_ofExcept, typeName_eq_ok_iff,
    Check.eval_requireLayer_iff, Check.eval_forM_iff, Check.eval_requireAttribute_iff, named,
    UpdateAcceptable, and_assoc, exists_and_left, exists_eq_left]

theorem eval_newFeature_iff : (Check.newFeature index feature).eval roles = .ok u ↔
    FeatureAcceptable roles index feature := by
  simp only [Check.newFeature, Check.eval_bind_iff, Check.eval_requireLayer_iff,
    Check.eval_forM_iff, Check.eval_requireAttribute_iff, and_assoc, exists_and_left,
    exists_eq_left]
  exact ⟨fun h => ⟨h.1, h.2⟩, fun h => ⟨h.layer, h.properties⟩⟩

theorem eval_insertOperation_iff : (Check.insertOperation index operation).eval roles = .ok u ↔
    InsertAcceptable roles index operation := by
  simp only [Check.insertOperation, Check.eval_bind_iff, Check.eval_forM_iff, eval_newFeature_iff,
    Check.eval_require_iff, exists_const, Bool.not_eq_true', List.isEmpty_eq_false_iff]
  exact ⟨fun h => ⟨h.2, h.1⟩, fun h => ⟨h.features, h.ne_nil⟩⟩

theorem eval_deleteOperation_iff : (Check.deleteOperation index operation).eval roles = .ok u ↔
    DeleteAcceptable roles index operation := by
  simp only [Check.deleteOperation, Check.eval_bind_iff, Check.eval_ofExcept, typeName_eq_ok_iff,
    Check.eval_discard_iff, Check.accepts_requireLayer, DeleteAcceptable]

theorem operationAcceptable_iff : OperationAcceptable roles index operation ↔
    operation.localName = "Update" ∧ UpdateAcceptable roles index operation ∨
    operation.localName = "Insert" ∧ InsertAcceptable roles index operation ∨
    operation.localName = "Delete" ∧ DeleteAcceptable roles index operation := by
  constructor
  · intro h
    cases h with
    | update named acceptable => exact .inl ⟨named, acceptable⟩
    | insert named acceptable => exact .inr (.inl ⟨named, acceptable⟩)
    | delete named acceptable => exact .inr (.inr ⟨named, acceptable⟩)
  · intro h
    rcases h with ⟨named, acceptable⟩ | ⟨named, acceptable⟩ | ⟨named, acceptable⟩
    · exact .update named acceptable
    · exact .insert named acceptable
    · exact .delete named acceptable

theorem eval_operation_iff : (Check.operation index operation).eval roles = .ok u ↔
    OperationAcceptable roles index operation := by
  rw [operationAcceptable_iff, Check.operation]
  by_cases hu : operation.localName = "Update"
  · simp [hu, eval_updateOperation_iff]
  by_cases hi : operation.localName = "Insert"
  · simp [hi, eval_insertOperation_iff]
  by_cases hd : operation.localName = "Delete"
  · simp [hd, eval_deleteOperation_iff]
  · simp [hu, hi, hd, Check.eval_fail]

/-! ## The whole document -/

theorem accepts_transaction_iff : (Check.transaction index root).Accepts roles ↔
    root.elements ≠ [] ∧
      ∀ operation ∈ root.elements, OperationAcceptable roles index operation := by
  simp only [Check.Accepts, Check.transaction, Check.eval_bind_iff, Check.eval_forM_iff,
    eval_operation_iff, Check.eval_require_iff, exists_const, Bool.not_eq_true',
    List.isEmpty_eq_false_iff]
  exact and_comm

/-! ## The names of updated properties -/

/-- The elements that are picked from the properties of the updates all name
attributes that may be edited on the layer of their update. -/
def NamesEditable (roles : List Role) (index : LayerIndex) (root : Element)
    (pick : Element → List Element) : Prop :=
  ∀ update ∈ root.elementsNamed "Update", ∀ typeName, NamesType update typeName →
    ∀ property ∈ update.elementsNamed "Property", ∀ e ∈ pick property,
      NameEditable roles (index.resolve typeName) e

theorem updateAcceptable_of_accepts (accepted : (Check.transaction index root).Accepts roles) :
    ∀ update ∈ root.elementsNamed "Update", UpdateAcceptable roles index update := by
  intro update hu
  obtain ⟨hm, hn⟩ := List.mem_filter.1 hu
  have named : update.localName = "Update" := beq_iff_eq.1 hn
  cases (accepts_transaction_iff.1 accepted).2 update hm with
  | update _ acceptable => exact acceptable
  | insert h | delete h => exact absurd (named.symm.trans h) (by decide)

/-- In an accepted transaction the first name of each property is that of an
attribute that may be edited. All names are exactly if those behind the first are. -/
theorem namesEditable_iff_later (accepted : (Check.transaction index root).Accepts roles) :
    (∀ update ∈ root.elementsNamed "Update", UpdateAcceptable roles index update) ∧
    (NamesEditable roles index root nameElements ↔
      NamesEditable roles index root fun property => (nameElements property).tail) := by
  have acceptable := updateAcceptable_of_accepts accepted
  refine ⟨acceptable, fun h => ?_, fun h => ?_⟩
  · intro update hu typeName hn property hp e he
    exact h update hu typeName hn property hp e (List.mem_of_mem_tail he)
  · intro update hu typeName hn property hp e he
    obtain ⟨typeName', hn', -, properties⟩ := acceptable update hu
    obtain rfl : typeName = typeName' := hn.unique hn'
    obtain ⟨first, later, names, -, editable⟩ := properties property hp
    have rest := h update hu typeName hn property hp
    simp only [names, List.tail_cons] at he rest
    rcases List.mem_cons.1 he with rfl | he
    · exact editable
    · exact rest e he

/-- The settings of a project with two layers. Everyone may do anything with the
one that is named `roads` and with its attribute `name`, and nothing with the
other. -/
def twoLayers (other : String) : ProjectSettings where
  projectFile := "city.qgs"
  access := .closed
  layers := ((∅ : NameMap LayerSettings).insert "a" ⟨other, ∅⟩).insert "b" ⟨"roads", ∅⟩
  roles := [⟨"staff", .everyone, ∅,
    (∅ : NameMap Flags).insert "b" (.ofList ["view", "query", "insert", "update", "delete"]),
    (∅ : NameMap (NameMap Flags)).insert "b"
      ((∅ : NameMap Flags).insert "name" (.ofList ["view", "edit"])), ∅⟩]

/-- A transaction that updates one property, which carries the given names. -/
def oneUpdate (names : List String) : Element :=
  ⟨"Transaction", [], [.element "Update" [("typeName", "roads")] [.element "Property" []
    (names.map fun name => .element "Name" [] [.text name])]]⟩

theorem namesType_of_mem_oneUpdate {names : List String} {update : Element}
    (h : update ∈ (oneUpdate names).elementsNamed "Update") : NamesType update "roads" := by
  obtain rfl := List.mem_singleton.1 (List.mem_filter.1 h).1
  exact FeatureQuery.typeName?_eq_some_iff.1 rfl

/-- The settings of a project with one layer, which is named `roads`. Everyone may update
it and edit two of its attributes. -/
def twoAttributes : ProjectSettings where
  projectFile := "city.qgs"
  access := .closed
  layers := (∅ : NameMap LayerSettings).insert "b" ⟨"roads", ∅⟩
  roles := [⟨"staff", .everyone, ∅, (∅ : NameMap Flags).insert "b" (.ofList ["update"]),
    (∅ : NameMap (NameMap Flags)).insert "b"
      (((∅ : NameMap Flags).insert "name" (.ofList ["edit"])).insert "owner" (.ofList ["edit"])),
    ∅⟩]

/-- Two names in one property, both of attributes that may be edited. -/
theorem namesEditable_twoNames :
    let index := LayerIndex.ofLayers twoAttributes.layers
    let root := oneUpdate ["name", " city:owner "]
    (Check.transaction index root).Accepts twoAttributes.roles ∧
    NamesEditable twoAttributes.roles index root (fun property => (nameElements property).tail) ∧
    NamesEditable twoAttributes.roles index root nameElements := by
  intro index root
  have accepted : (Check.transaction (.ofLayers twoAttributes.layers)
      (oneUpdate ["name", " city:owner "])).Accepts twoAttributes.roles := ⟨_, rfl⟩
  have later : NamesEditable twoAttributes.roles index root fun property =>
      (nameElements property).tail := by
    intro update hu typeName hn property hp e he
    obtain rfl := hn.unique (namesType_of_mem_oneUpdate hu)
    obtain rfl := List.mem_singleton.1 hu
    obtain rfl := List.mem_singleton.1 hp
    obtain rfl := List.mem_singleton.1 he
    have owner : (Grants.attributeFlags twoAttributes.roles
        ((LayerIndex.ofLayers twoAttributes.layers).resolve "roads")
        (Text.localName (Element.text ⟨"Name", [], [.text " city:owner "]⟩))).has
          Permission.edit.tag = true := by decide +kernel
    exact has_attributeFlags_iff.1 owner
  exact ⟨accepted, later, (namesEditable_iff_later accepted).2.2 later⟩

/-- Two names in one property: the second is that of an attribute that nobody may
edit. -/
theorem not_namesEditable_secondName :
    let settings := twoLayers "buildings"
    let roles := applicableRoles .anonymous settings.roles
    let root := oneUpdate ["name", "owner"]
    settings.validate = .ok settings ∧
      (Check.transaction (.ofLayers settings.layers) root).Accepts roles ∧
      ¬ NamesEditable roles (.ofLayers settings.layers) root nameElements := by
  refine ⟨rfl, ⟨_, rfl⟩, fun h => ?_⟩
  have here : ⟨"Update", [("typeName", "roads")], [.element "Property" []
      (["name", "owner"].map fun name => .element "Name" [] [.text name])]⟩ ∈
        (oneUpdate ["name", "owner"]).elementsNamed "Update" := List.mem_singleton_self _
  have owner := h _ here "roads" (namesType_of_mem_oneUpdate here) _ (List.mem_singleton_self _)
    ⟨"Name", [], [.text "owner"]⟩ (List.mem_cons_of_mem _ (List.mem_singleton_self _))
  exact absurd (has_attributeFlags_iff.2 owner) (Bool.eq_false_iff.1 rfl)

end Transaction

end MapGate
