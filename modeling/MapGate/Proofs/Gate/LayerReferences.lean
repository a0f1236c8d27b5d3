import MapGate.Proofs.Gate.Mediation
import MapGate.Proofs.Gate.TransactionDocument

/-!
# The layers that a request refers to

A request refers to layers in its parameters (`ParamsRefer`) and in the elements
of a document that is checked (`ElementRefers`). When it goes on, all of them
permit what the request does to them (`permitsLayer_of_refers`), each as the
layer that its name resolves to.

An element may have several attributes that can be read as the name of its type,
and only one of them is. `typeNamesPermitted_iff` says when it is permitted on
the layers of all of them.
-/

namespace MapGate

open Xml
open FeatureQuery (NamesType)
open Transaction (OperationAcceptable accepts_transaction_iff twoLayers)

variable {roles : List Role} {index : LayerIndex} {params : Params} {root e : Element}
  {layer : String} {permission : Permission}

/-! ## References -/

/-- Parameters refer to a layer, and need a permission there. -/
inductive ParamsRefer (params : Params) : Operation → String → Permission → Prop
  | map {layer : String} (listed : layer ∈ Text.entries ((params.get? "LAYERS").getD "")) :
    ParamsRefer params .getMap layer .view
  | print {layer : String} (listed : layer ∈ Text.entries ((params.get? "LAYERS").getD "")) :
    ParamsRefer params .getPrint layer .view
  | printedMap {layer : String} {pair : String × String}
      (lists : pair ∈ params.filterNames Params.listsMapLayers)
      (listed : layer ∈ Text.entries pair.2) :
    ParamsRefer params .getPrint layer .view
  | queried {layer : String} (listed : layer ∈ Text.entries ((params.get? "QUERY_LAYERS").getD "")) :
    ParamsRefer params .getFeatureInfo layer .query
  | queriedMap {layer : String} (listed : layer ∈ Text.entries ((params.get? "LAYERS").getD "")) :
    ParamsRefer params .getFeatureInfo layer .view
  | type {layer : String} (listed : layer ∈ FeatureQuery.typeNames params) :
    ParamsRefer params .getFeatureKvp layer .query

/-- What an element of the given local name needs of the layer that it names in an
attribute. -/
def typedPermission? : String → Option Permission
  | "Query" => some .query
  | "Update" => some .update
  | "Delete" => some .delete
  | _ => none

/-- An element of a document refers to a layer, and needs a permission there. -/
inductive ElementRefers (e : Element) : String → Permission → Prop
  | typed {permission : Permission} {typeName : String}
      (kind : typedPermission? e.localName = some permission) (named : NamesType e typeName) :
    ElementRefers e typeName permission
  | insert {feature : Element} (named : e.localName = "Insert") (mem : feature ∈ e.elements) :
    ElementRefers e feature.localName .insert

/-- The root of a document that is checked. -/
def Checked (root : Element) : Prop :=
  root.localName = "GetFeature" ∨ root.localName = "Transaction"

/-- A request refers to a layer, and needs a permission there. -/
inductive Request.Refers (request : Request) (layer : String) (permission : Permission) : Prop
  | params (refers : ParamsRefer request.params
      (Operation.classify request.method request.params) layer permission)
  | body {document : Document} {e : Element}
      (parsed : Document.ofBytes request.body = .ok document) (checked : Checked document.root)
      (mem : e ∈ document.root.elements) (refers : ElementRefers e layer permission)

/-! ## What is referred to is permitted -/

theorem ParametersAccepted.permitsLayer {operation : Operation}
    (accepted : ParametersAccepted roles index params operation)
    (refers : ParamsRefer params operation layer permission) :
    PermitsLayer roles (index.resolve layer) permission := by
  cases refers with
  | map listed => exact accepted.2 layer listed
  | print listed => exact accepted.2.1 layer listed
  | printedMap lists listed => exact accepted.2.2 _ lists layer listed
  | queried listed => exact accepted.2.1 layer listed
  | queriedMap listed => exact accepted.2.2 layer listed
  | type listed =>
    obtain ⟨⟨params', narrowed⟩, he⟩ := accepted
    obtain ⟨-, entries, reads, each, -⟩ := FeatureQuery.eval_getFeatureParams_iff.1 he
    rw [← reads.map_fst] at listed
    obtain ⟨entry, hm, rfl⟩ := List.mem_map.1 listed
    exact (each entry hm).layer

/-- The elements of a document that is accepted: queries, or operations. -/
theorem DocumentAccepted.elements (accepted : DocumentAccepted roles index root)
    (checked : Checked root) (he : e ∈ root.elements) :
    (e.localName = "Query" ∧ FeatureQuery.Acceptable roles index e) ∨
      OperationAcceptable roles index e := by
  rcases checked with h | h
  · exact .inl ((FeatureQuery.accepts_getFeature_iff.1 (accepted.getFeature h)).2 e he)
  · exact .inr ((accepts_transaction_iff.1 (accepted.transaction h)).2 e he)

theorem DocumentAccepted.permitsType (accepted : DocumentAccepted roles index root)
    (checked : Checked root) (he : e ∈ root.elements)
    (kind : typedPermission? e.localName = some permission) :
    ∃ typeName, NamesType e typeName ∧ PermitsLayer roles (index.resolve typeName) permission := by
  rcases accepted.elements checked he with ⟨named, typeName, hn, -, hp, -⟩ |
    ⟨named, typeName, hn, hp, -⟩ | ⟨named, -⟩ | ⟨named, typeName, hn, hp⟩ <;> rw [named] at kind
  · obtain rfl : Permission.query = permission := Option.some.inj kind
    exact ⟨typeName, hn, hp⟩
  · obtain rfl : Permission.update = permission := Option.some.inj kind
    exact ⟨typeName, hn, hp⟩
  · cases kind
  · obtain rfl : Permission.delete = permission := Option.some.inj kind
    exact ⟨typeName, hn, hp⟩

theorem DocumentAccepted.permitsLayer (accepted : DocumentAccepted roles index root)
    (checked : Checked root) (he : e ∈ root.elements) (refers : ElementRefers e layer permission) :
    PermitsLayer roles (index.resolve layer) permission := by
  cases refers with
  | typed kind named =>
    obtain ⟨typeName, hn, hp⟩ := accepted.permitsType checked he kind
    rwa [named.unique hn]
  | insert named mem =>
    rcases accepted.elements checked he with ⟨h, -⟩ | ⟨h, -⟩ | ⟨-, acceptable⟩ | ⟨h, -⟩
    · exact absurd (h.symm.trans named) (by decide)
    · exact absurd (h.symm.trans named) (by decide)
    · exact (acceptable.features _ mem).layer
    · exact absurd (h.symm.trans named) (by decide)

/-- When a request goes on, what it refers to is permitted. -/
theorem permitsLayer_of_refers {request : Request} {context : PermissionContext}
    {outcome : Inspection × Request} (h : request.inspect index (some context) = .ok outcome)
    (refers : request.Refers layer permission) :
    PermitsLayer context.roles (index.resolve layer) permission := by
  obtain ⟨-, parameters, body⟩ := exists_inspect_eq_ok_iff.1 ⟨outcome, h⟩
  cases refers with
  | params refers => exact parameters.permitsLayer refers
  | body parsed checked mem refers =>
    obtain ⟨document, hd, accepted⟩ :=
      body (readsBody_iff.2 (.inr (isEmpty_of_ofBytes parsed)))
    obtain rfl := Except.ok.inj (parsed.symm.trans hd)
    exact accepted.permitsLayer checked mem refers

/-! ## Several type names in one element -/

/-- An attribute of an element can be read as the name of its type. -/
def GivesTypeName (e : Element) (value : String) : Prop :=
  ∃ key, (key, value) ∈ e.attributes ∧ (Named key "typeName" ∨ Named key "typeNames")

/-- An attribute can be read as the name of a type whose layer is not the one that
the element is checked for. -/
def GivesOtherLayer (index : LayerIndex) (e : Element) (value : String) : Prop :=
  GivesTypeName e value ∧
    ∀ typeName, NamesType e typeName → index.resolve (Text.trim value) ≠ index.resolve typeName

/-- The type names that are picked from the elements of a document lead to layers
that permit what the element needs. -/
def TypeNamesPermitted (roles : List Role) (index : LayerIndex) (root : Element)
    (pick : Element → String → Prop) : Prop :=
  ∀ e ∈ root.elements, ∀ permission, typedPermission? e.localName = some permission →
    ∀ value, pick e value → PermitsLayer roles (index.resolve (Text.trim value)) permission

/-- In an accepted document each element is permitted on the layer of the type name
that is read. It is permitted on the layers of all its type names exactly if it
is on those that another reader could find. -/
theorem typeNamesPermitted_iff (accepted : DocumentAccepted roles index root)
    (checked : Checked root) :
    (∀ e ∈ root.elements, ∀ permission, typedPermission? e.localName = some permission →
      ∃ typeName, NamesType e typeName ∧ PermitsLayer roles (index.resolve typeName) permission) ∧
    (TypeNamesPermitted roles index root GivesTypeName ↔
      TypeNamesPermitted roles index root (GivesOtherLayer index)) := by
  refine ⟨fun e he permission kind => accepted.permitsType checked he kind, fun h => ?_, fun h => ?_⟩
  · intro e he permission kind value hv
    exact h e he permission kind value hv.1
  · intro e he permission kind value hv
    obtain ⟨typeName, hn, hp⟩ := accepted.permitsType checked he kind
    by_cases same : index.resolve (Text.trim value) = index.resolve typeName
    · rwa [same]
    · exact h e he permission kind value ⟨hv, fun typeName' hn' => hn.unique hn' ▸ same⟩

/-- A feature query whose element has the given attributes. -/
def queryWith (attributes : List (String × String)) : Element :=
  ⟨"GetFeature", [], [.element "Query" attributes []]⟩

theorem accepted_queryWith (roles : List Role) (index : LayerIndex)
    (attributes : List (String × String))
    (h : (Check.getFeature index (queryWith attributes)).Accepts roles) :
    DocumentAccepted roles index (queryWith attributes) ∧ Checked (queryWith attributes) := by
  have named : (queryWith attributes).localName = "GetFeature" :=
    Text.localName_of_colon_notMem (show ':' ∉ "GetFeature".toList by decide)
  exact ⟨⟨fun _ => h, fun e => absurd (named.symm.trans e) (by decide)⟩, .inl named⟩

theorem typeNamesPermitted_roads :
    DocumentAccepted (twoLayers "buildings").roles (.ofLayers (twoLayers "buildings").layers)
        (queryWith [("typeName", "roads"), ("ns:typeName", "ns:roads")]) ∧
      Checked (queryWith [("typeName", "roads"), ("ns:typeName", "ns:roads")]) ∧
      TypeNamesPermitted (twoLayers "buildings").roles
        (.ofLayers (twoLayers "buildings").layers)
        (queryWith [("typeName", "roads"), ("ns:typeName", "ns:roads")]) GivesTypeName := by
  obtain ⟨accepted, checked⟩ := accepted_queryWith (twoLayers "buildings").roles
    (.ofLayers (twoLayers "buildings").layers)
    [("typeName", "roads"), ("ns:typeName", "ns:roads")] ⟨_, rfl⟩
  refine ⟨accepted, checked, (typeNamesPermitted_iff accepted checked).2.2 ?_⟩
  intro e he permission _ value hv
  obtain rfl := List.mem_singleton.1 he
  obtain ⟨⟨key, hk, -⟩, other⟩ := hv
  have read := other "roads" (FeatureQuery.typeName?_eq_some_iff.1 rfl)
  rcases List.mem_cons.1 hk with e | hk
  · cases e; exact absurd rfl read
  · cases List.mem_singleton.1 hk; exact absurd rfl read

/-- Two type names in one query: the gate reads the one, and nobody may query the
layer of the other. -/
theorem not_typeNamesPermitted_second :
    let settings := twoLayers "buildings"
    let roles := applicableRoles .anonymous settings.roles
    let root := queryWith [("typeName", "roads"), ("typeNames", "buildings")]
    settings.validate = .ok settings ∧ DocumentAccepted roles (.ofLayers settings.layers) root ∧
      Checked root ∧
      ¬ TypeNamesPermitted roles (.ofLayers settings.layers) root GivesTypeName := by
  obtain ⟨accepted, checked⟩ := accepted_queryWith (twoLayers "buildings").roles
    (.ofLayers (twoLayers "buildings").layers)
    [("typeName", "roads"), ("typeNames", "buildings")] ⟨_, rfl⟩
  refine ⟨rfl, accepted, checked, fun h => ?_⟩
  have given : GivesTypeName ⟨"Query", [("typeName", "roads"), ("typeNames", "buildings")], []⟩
      "buildings" :=
    ⟨"typeNames", List.mem_cons_of_mem _ (List.mem_singleton_self _), .inr ⟨by decide, by decide⟩⟩
  have permitted := h _ (List.mem_singleton_self _) .query rfl "buildings" given
  exact absurd (has_layerFlags_iff.2 permitted) (Bool.eq_false_iff.1 rfl)

end MapGate
