import Mathlib.Data.List.Sort
import MapGate.Proofs.Gate.Mediation
import MapGate.Proofs.Gate.TransactionDocument

/-!
# Wider grants

What some roles grant, others may grant as well, and more (`Grants.Within`). Then a request
that goes on under the first goes on under the others, as the same operation, and what is
made up for it only gets longer (`inspect_mono`). Each condition on a request asks for flags
and never for the lack of one, so each is kept (`mono`). Whether a query is narrowed depends
on what it asks for alone, and the list that it gets is a sorted selection of all attributes
(`viewableNames_sublist`).
-/

namespace MapGate

open Xml

/-- All that some roles grant is granted by others, too. -/
structure Grants.Within (roles roles' : List Role) : Prop where
  layers : ∀ id tag, (layerFlags roles id).has tag → (layerFlags roles' id).has tag
  attributes : ∀ id attr tag, (attributeFlags roles id attr).has tag →
    (attributeFlags roles' id attr).has tag

variable {roles roles' : List Role} {index : LayerIndex} {id attr : String}

/-- More roles grant more. -/
theorem Grants.within_of_subset (h : roles ⊆ roles') : Grants.Within roles roles' where
  layers id tag granted := by
    obtain ⟨known, role, hr, flags⟩ := has_layerFlags.1 granted
    exact has_layerFlags.2 ⟨known, role, h hr, flags⟩
  attributes id attr tag granted := by
    obtain ⟨known, role, hr, flags⟩ := has_attributeFlags.1 granted
    exact has_attributeFlags.2 ⟨known, role, h hr, flags⟩

section

variable (more : Grants.Within roles roles')
include more

/-! ## Layers and attributes -/

theorem PermitsLayer.mono {permission : Permission} (h : PermitsLayer roles id permission) :
    PermitsLayer roles' id permission :=
  has_layerFlags_iff.1 (more.layers _ _ (has_layerFlags_iff.2 h))

theorem PermitsAttribute.mono {permission : Permission}
    (h : PermitsAttribute roles id attr permission) : PermitsAttribute roles' id attr permission :=
  has_attributeFlags_iff.1 (more.attributes _ _ _ (has_attributeFlags_iff.2 h))

theorem Viewable.mono (h : Viewable roles id attr) : Viewable roles' id attr :=
  ⟨h.1, h.2.mono more⟩

theorem MayAsk.mono (h : MayAsk roles id attr) : MayAsk roles' id attr :=
  h.imp_right (·.mono more)

theorem Askable.mono {requested : List String} (h : Askable roles id requested) :
    Askable roles' id requested :=
  ⟨fun p hp => (h.mayAsk p hp).mono more, h.asksAttribute⟩

/-- The attributes that more may view stand in the same order. -/
theorem viewableNames_sublist : (viewableNames roles id).Sublist (viewableNames roles' id) := by
  have sorted := sorted_viewableNames roles id
  refine List.sublist_of_subperm_of_pairwise (List.subperm_of_subset sorted.nodup ?_) sorted
    (sorted_viewableNames roles' id)
  exact fun attr h => mem_viewableNames.2 ((mem_viewableNames.1 h).mono more)

/-! ## Feature queries -/

namespace FeatureQuery

theorem ListAccepted.mono {entry : String × List String} (h : ListAccepted roles index entry) :
    ListAccepted roles' index entry where
  layer := h.layer.mono more
  list := h.list.imp (·.mono more) fun ⟨unlisted, attr, viewable⟩ =>
    ⟨unlisted, attr, viewable.mono more⟩

theorem forwardedList_sublist (entry : String × List String) :
    (forwardedList roles index entry).Sublist (forwardedList roles' index entry) := by
  by_cases h : entry.2 = []
  · rw [forwardedList_of_nil h, forwardedList_of_nil h]
    exact (viewableNames_sublist more).cons_cons _
  · rw [forwardedList_of_ne_nil h, forwardedList_of_ne_nil h]

theorem Acceptable.mono {query : Element} (h : Acceptable roles index query) :
    Acceptable roles' index query := by
  obtain ⟨typeName, named, single, layer, asked⟩ := h
  refine ⟨typeName, named, single, layer.mono more, ?_⟩
  split at asked <;> rename_i listed
  · rw [if_pos listed]
    obtain ⟨attr, viewable⟩ := asked
    exact ⟨attr, viewable.mono more⟩
  · rw [if_neg listed]
    exact ⟨fun p hp => (asked.1 p hp).mono more, asked.2⟩

end FeatureQuery

/-! ## Transactions -/

namespace Transaction

theorem UpdateAcceptable.mono {operation : Element} (h : UpdateAcceptable roles index operation) :
    UpdateAcceptable roles' index operation := by
  obtain ⟨typeName, named, layer, properties⟩ := h
  refine ⟨typeName, named, layer.mono more, fun property hp => ?_⟩
  obtain ⟨first, later, names, named, editable⟩ := properties property hp
  exact ⟨first, later, names, named, PermitsAttribute.mono more editable⟩

theorem InsertAcceptable.mono {operation : Element} (h : InsertAcceptable roles index operation) :
    InsertAcceptable roles' index operation where
  ne_nil := h.ne_nil
  features feature hf :=
    have accepted := h.features feature hf
    ⟨accepted.layer.mono more, fun property hp => (accepted.properties property hp).mono more⟩

theorem OperationAcceptable.mono {operation : Element}
    (h : OperationAcceptable roles index operation) : OperationAcceptable roles' index operation := by
  cases h with
  | update named acceptable => exact .update named (acceptable.mono more)
  | insert named acceptable => exact .insert named (acceptable.mono more)
  | delete named acceptable =>
    obtain ⟨typeName, typed, layer⟩ := acceptable
    exact .delete named ⟨typeName, typed, layer.mono more⟩

end Transaction

/-! ## Conditions on requests -/

theorem ListPermitted.mono {list : String} {permission : Permission}
    (h : ListPermitted roles index list permission) : ListPermitted roles' index list permission :=
  fun layer hl => (h layer hl).mono more

theorem DocumentAccepted.mono {root : Element} (h : DocumentAccepted roles index root) :
    DocumentAccepted roles' index root where
  getFeature named := by
    obtain ⟨some, queries⟩ := FeatureQuery.accepts_getFeature_iff.1 (h.getFeature named)
    refine FeatureQuery.accepts_getFeature_iff.2 ⟨some, fun query hq => ?_⟩
    exact ⟨(queries query hq).1, (queries query hq).2.mono more⟩
  transaction named := by
    obtain ⟨some, operations⟩ := Transaction.accepts_transaction_iff.1 (h.transaction named)
    exact Transaction.accepts_transaction_iff.2
      ⟨some, fun operation ho => (operations operation ho).mono more⟩

end

/-! ## Longer lists -/

/-- Two results of narrowing parameters: they stay as they are, or each type name gets a list
that is a part of the other one for it. -/
inductive Params.Lengthened (params : Params) : Params → Params → Prop
  | kept : Lengthened params params params
  | listed {lists lists' : List (List String)} (longer : List.Forall₂ List.Sublist lists lists') :
      Lengthened params (params.set "PROPERTYNAME" (FeatureQuery.renderGroups lists))
        (params.set "PROPERTYNAME" (FeatureQuery.renderGroups lists'))

/-- Two results of narrowing a part of a document: it stays as it is, or it is a query that
gets a list which is a part of the other one for it. -/
inductive Xml.Node.Lengthened : Node → Node → Prop
  | kept (node : Node) : Lengthened node node
  | listed (query : Element) {properties properties' : List String}
      (longer : properties.Sublist properties') :
      Lengthened (FeatureQuery.select query (.narrowed properties)).toNode
        (FeatureQuery.select query (.narrowed properties')).toNode

/-- Two results of narrowing the body of requests that have the same. -/
inductive Request.Lengthened (request request' : Request) : Request → Request → Prop
  | kept : Lengthened request request' request request'
  | narrowed (document : Document) {children children' : List Node}
      (longer : List.Forall₂ Node.Lengthened children children') :
      Lengthened request request'
        (request.replaceBody
          { document with root := { document.root with children } }.render.toUTF8)
        (request'.replaceBody
          { document with root := { document.root with children := children' } }.render.toUTF8)

section

variable (more : Grants.Within roles roles')
include more

theorem ParametersForwarded.mono {operation : Operation} {params params₁ : Params} {narrowed : Bool}
    (h : ParametersForwarded roles index operation params params₁ narrowed) :
    ∃ params₂, ParametersForwarded roles' index operation params params₂ narrowed ∧
      params.Lengthened params₁ params₂ := by
  rw [ParametersForwarded] at h
  simp only [ParametersForwarded]
  split at h <;> rename_i query
  · obtain ⟨some, entries, reads, accepted, rfl, rfl⟩ := FeatureQuery.eval_getFeatureParams_iff.1 h
    have accepted' := FeatureQuery.eval_getFeatureParams_iff.2
      ⟨some, entries, reads, fun entry he => (accepted entry he).mono more, rfl, rfl⟩
    refine ⟨FeatureQuery.forwardedParams roles' index params entries, by rwa [if_pos query], ?_⟩
    rw [FeatureQuery.forwardedParams, FeatureQuery.forwardedParams]
    split
    · refine .listed ?_
      rw [List.forall₂_map_left_iff, List.forall₂_map_right_iff, List.forall₂_same]
      exact fun entry _ => FeatureQuery.forwardedList_sublist more entry
    · exact .kept
  · obtain ⟨rfl, rfl⟩ := h
    exact ⟨params₁, by rw [if_neg query]; exact ⟨rfl, rfl⟩, .kept⟩

theorem ParametersAccepted.mono {operation : Operation} {params : Params}
    (h : ParametersAccepted roles index params operation) :
    ParametersAccepted roles' index params operation := by
  cases operation with
  | getCapabilities | passThrough | wfsDocument | getFeature | transaction => trivial
  | transactionKvp => exact h
  | getMap => exact ⟨h.1, h.2.mono more⟩
  | getPrint => exact ⟨h.1, h.2.1.mono more, fun pair hp => (h.2.2 pair hp).mono more⟩
  | getFeatureInfo => exact ⟨h.1, h.2.1.mono more, h.2.2.mono more⟩
  | getFeatureKvp =>
    obtain ⟨⟨params', narrowed⟩, h⟩ := h
    have forwarded : ParametersForwarded roles index .getFeatureKvp params params' narrowed := by
      rwa [ParametersForwarded, if_pos rfl]
    obtain ⟨params'', h, -⟩ := forwarded.mono more
    rw [ParametersForwarded, if_pos rfl] at h
    exact ⟨_, h⟩

theorem narrowNode_lengthened (node : Node) :
    (FeatureQuery.narrowNode roles index node).Lengthened
      (FeatureQuery.narrowNode roles' index node) := by
  rw [FeatureQuery.narrowNode, FeatureQuery.narrowNode]
  cases node.element? with
  | none => exact .kept _
  | some query =>
    dsimp only
    rw [FeatureQuery.selection, FeatureQuery.selection]
    split
    · exact .listed query ((viewableNames_sublist more).cons_cons _)
    · exact .kept _

theorem forwardDocument_lengthened (request request' : Request) (document : Document) :
    Request.Lengthened request request'
      (Check.forwardDocument roles index request document)
      (Check.forwardDocument roles' index request' document) := by
  rw [Check.forwardDocument, Check.forwardDocument]
  split
  · refine .narrowed document ?_
    rw [List.forall₂_map_left_iff, List.forall₂_map_right_iff, List.forall₂_same]
    exact fun node _ => narrowNode_lengthened more node
  · exact .kept

end

/-- Granting more never refuses: what goes on under some roles goes on under roles that grant
all that they do, as the same operation and narrowed or not as before. The lists of
properties that are made up for it may get longer. -/
theorem inspect_mono {context context' : PermissionContext}
    (more : Grants.Within context.roles context'.roles) {request forwarded : Request}
    {inspection : Inspection}
    (accepted : request.inspect index (some context) = .ok (inspection, forwarded)) :
    ∃ forwarded', request.inspect index (some context') = .ok (inspection, forwarded') ∧
      ∃ params params', request.params.Lengthened params params' ∧
        Request.Lengthened { request with params } { request with params := params' }
          forwarded forwarded' := by
  obtain ⟨once, accepted⟩ := inspect_eq_ok_iff.1 accepted
  obtain ⟨parameters, params, narrowed, found, body⟩ := Check.eval_request_iff.1 accepted
  obtain ⟨params', found', longer⟩ := found.mono more
  simp only [inspect_eq_ok_iff, Check.eval_request_iff]
  split at body <;> rename_i reads
  · obtain ⟨document, read, root, e⟩ := body
    obtain ⟨rfl, rfl⟩ := Prod.mk.inj e
    refine ⟨_, ⟨once, parameters.mono more, params', narrowed, found', ?_⟩, params, params', longer,
      forwardDocument_lengthened more _ _ _⟩
    rw [if_pos reads]
    exact ⟨document, read, root.mono more, rfl⟩
  · obtain ⟨rfl, rfl⟩ := Prod.mk.inj body
    refine ⟨_, ⟨once, parameters.mono more, params', narrowed, found', ?_⟩, params, params', longer,
      .kept⟩
    rw [if_neg reads]

/-- A query on the roads that asks for no properties, in parameters that may hold a list. -/
def unlistedQuery (list : List (String × String)) : Request where
  method := .get
  params := ⟨[("SERVICE", "WFS"), ("REQUEST", "GetFeature"), ("TYPENAME", "roads")] ++ list⟩
  headers := .empty
  body := .empty
  publicPath := "/city"

open FeatureQuery (oneAttribute) in
theorem inspect_unlistedQuery :
    Grants.Within (oneAttribute "name").roles
      ((oneAttribute "name").roles ++ (oneAttribute "owner").roles) ∧
    (unlistedQuery []).inspect (.ofLayers (oneAttribute "name").layers)
        (some (.ofRoles (oneAttribute "name").roles)) =
      .ok (⟨.getFeatureKvp, true⟩, unlistedQuery [("PROPERTYNAME", "geometry,name")]) ∧
    (∃ forwarded', (unlistedQuery []).inspect (.ofLayers (oneAttribute "name").layers)
        (some (.ofRoles ((oneAttribute "name").roles ++ (oneAttribute "owner").roles))) =
      .ok (⟨.getFeatureKvp, true⟩, forwarded')) ∧
    (unlistedQuery []).inspect (.ofLayers (oneAttribute "name").layers)
        (some (.ofRoles ((oneAttribute "name").roles ++ (oneAttribute "owner").roles))) =
      .ok (⟨.getFeatureKvp, true⟩, unlistedQuery [("PROPERTYNAME", "geometry,name,owner")]) := by
  have more : Grants.Within (oneAttribute "name").roles
      ((oneAttribute "name").roles ++ (oneAttribute "owner").roles) :=
    Grants.within_of_subset (List.subset_append_left _ _)
  have accepted : (unlistedQuery []).inspect (.ofLayers (oneAttribute "name").layers)
        (some (.ofRoles (oneAttribute "name").roles)) =
      .ok (⟨.getFeatureKvp, true⟩, unlistedQuery [("PROPERTYNAME", "geometry,name")]) := rfl
  have contexts : Grants.Within (PermissionContext.ofRoles (oneAttribute "name").roles).roles
      (PermissionContext.ofRoles
        ((oneAttribute "name").roles ++ (oneAttribute "owner").roles)).roles := more
  obtain ⟨forwarded', accepted', -⟩ := inspect_mono contexts accepted
  exact ⟨more, accepted, ⟨forwarded', accepted'⟩, rfl⟩

end MapGate
