import MapGate.Gate.FeatureQuery
import MapGate.Proofs.Gate.Selection
import MapGate.Proofs.Xml.Elements

/-!
# Feature queries in documents

When a `GetFeature` document is accepted, and what becomes of it. A query is
acceptable when it names one layer that may be queried and asks for what may be
asked for (`FeatureQuery.Acceptable`). The document is accepted when it holds
queries only, at least one, and all of them acceptable; then a query that asks
for nothing gets a list of properties in front of its content, and nothing else
changes (`FeatureQuery.NodeNarrowed`).

* `eval_check_iff`: the outcome for one query;
* `eval_getFeature_iff`: the outcome for a document, as a function of its root;
* `nodeNarrowed_narrowNode`: what becomes of the tree, node by node.
-/

namespace MapGate

open Xml

namespace FeatureQuery

variable {roles : List Role} {index : LayerIndex} {query : Element} {typeName : String}

/-- The type name of a query: the trimmed value of its first `typeName`, or of
its first `typeNames` where it has none, if that is not blank. -/
def NamesType (query : Element) (typeName : String) : Prop :=
  ∃ value, (query.FirstAttribute "typeName" value ∨
      query.NoAttribute "typeName" ∧ query.FirstAttribute "typeNames" value) ∧
    typeName = Text.trim value ∧ typeName ≠ ""

/-- A query that is accepted: it names one layer that may be queried, and either
asks for properties that may be asked for, not just for the geometry, or asks
for nothing while there are attributes that it can be given. -/
def Acceptable (roles : List Role) (index : LayerIndex) (query : Element) : Prop :=
  ∃ typeName, NamesType query typeName ∧
    (∀ c ∈ typeName.toList, c ≠ ',' ∧ Text.isBlank c = false) ∧
    PermitsLayer roles (index.resolve typeName) .query ∧
    if query.elementsNamed "PropertyName" = [] then
      ∃ attr, Viewable roles (index.resolve typeName) attr
    else
      (∀ p ∈ query.elementsNamed "PropertyName",
        MayAsk roles (index.resolve typeName) (Text.localName p.text)) ∧
      ∃ p ∈ query.elementsNamed "PropertyName", Text.localName p.text ≠ geometryProperty

theorem typeName?_eq_some_iff : typeName? query = some typeName ↔ NamesType query typeName := by
  simp only [typeName?, Option.filter_eq_some_iff, Option.map_eq_some_iff, decide_eq_true_eq,
    NamesType, ← Element.attribute?_eq_some_iff, ← Element.attribute?_eq_none_iff]
  constructor
  · intro h
    obtain ⟨⟨value, h, rfl⟩, hne⟩ := h
    refine ⟨value, ?_, rfl, hne⟩
    cases h' : query.attribute? "typeName" <;> simp_all
  · intro h
    obtain ⟨value, h, rfl, hne⟩ := h
    refine ⟨⟨value, ?_, rfl⟩, hne⟩
    rcases h with h | ⟨h, h'⟩ <;> simp [*]

theorem NamesType.unique {typeName' : String} (h : NamesType query typeName)
    (h' : NamesType query typeName') : typeName = typeName' :=
  Option.some.inj ((typeName?_eq_some_iff.2 h).symm.trans (typeName?_eq_some_iff.2 h'))

theorem joinsLayers_eq_false_iff :
    joinsLayers typeName = false ↔ ∀ c ∈ typeName.toList, c ≠ ',' ∧ Text.isBlank c = false := by
  simp [joinsLayers]

theorem requested_eq_nil_iff : requested query = [] ↔ query.elementsNamed "PropertyName" = [] :=
  List.map_eq_nil_iff

theorem attributeOf_text (e : Element) : attributeOf e.text = Text.localName e.text := by
  rw [attributeOf, e.trim_text]

theorem askable_requested_iff {id : String} :
    Askable roles id (requested query) ↔
      (∀ p ∈ query.elementsNamed "PropertyName", MayAsk roles id (Text.localName p.text)) ∧
      ∃ p ∈ query.elementsNamed "PropertyName", Text.localName p.text ≠ geometryProperty := by
  constructor
  · intro h
    obtain ⟨h, p, hp, hne⟩ := h
    obtain ⟨e, he, rfl⟩ := List.mem_map.1 hp
    exact ⟨fun e he => attributeOf_text e ▸ h _ (List.mem_map_of_mem he), e, he,
      attributeOf_text e ▸ hne⟩
  · intro h
    obtain ⟨h, e, he, hne⟩ := h
    refine ⟨fun p hp => ?_, _, List.mem_map_of_mem he, (attributeOf_text e).symm ▸ hne⟩
    obtain ⟨e, he, rfl⟩ := List.mem_map.1 hp
    exact (attributeOf_text e).symm ▸ h e he

/-! ## One query -/

/-- The ID of the layer of a query. -/
def layerId (index : LayerIndex) (query : Element) : String :=
  index.resolve ((typeName? query).getD "")

/-- What an accepted query is to ask for. -/
def selection (roles : List Role) (index : LayerIndex) (query : Element) : Selection :=
  if (requested query).isEmpty then
    .narrowed (geometryProperty :: viewableNames roles (layerId index query))
  else .requested

theorem eval_check_iff {outcome : Selection} :
    (check index query).eval roles = .ok outcome ↔
      Acceptable roles index query ∧ outcome = selection roles index query := by
  simp only [Acceptable, ← typeName?_eq_some_iff, selection, layerId, check,
    ← requested_eq_nil_iff, ← askable_requested_iff]
  cases typeName? query with
  | none => simp [Except.bind]
  | some typeName =>
    simp only [Check.eval_bind_iff, Check.eval_ofExcept, Except.ok.injEq, Option.some.injEq,
      exists_eq_left', Check.eval_require_iff, Bool.not_eq_true', joinsLayers_eq_false_iff,
      Check.eval_requireLayer_iff, Check.eval_selectProperties_iff, exists_const,
      exists_and_left, exists_eq_left, Option.getD_some, and_assoc, List.isEmpty_iff]
    refine and_congr_right fun _ => and_congr_right fun _ => ?_
    by_cases h : requested query = []
    · have none : ¬ Askable roles (index.resolve typeName) [] := fun h => h.ne_nil rfl
      simp [h, none]
    · simp [h]

/-! ## The whole document -/

/-- A node of an accepted document as it is forwarded. -/
def narrowNode (roles : List Role) (index : LayerIndex) (node : Node) : Node :=
  match node.element? with
  | none => node
  | some query => (select query (selection roles index query)).toNode

/-- The root of an accepted document as it is forwarded. -/
def narrowRoot (roles : List Role) (index : LayerIndex) (root : Element) : Element :=
  { root with children := root.children.map (narrowNode roles index) }

theorem isNarrowed_selection (roles : List Role) (index : LayerIndex) (query : Element) :
    (selection roles index query).isNarrowed = (requested query).isEmpty := by
  rw [selection]
  split <;> simp_all [Selection.isNarrowed]

theorem eval_featureNode_iff (node : Node) (result : Node × Bool) :
    (Check.featureNode index node).eval roles = .ok result ↔
      (∀ query, node.element? = some query →
        query.localName = "Query" ∧ Acceptable roles index query) ∧
      result = (narrowNode roles index node,
        node.element?.any fun query => (requested query).isEmpty) := by
  rw [Check.featureNode, narrowNode]
  cases node.element? with
  | none => simp [eq_comm]
  | some query =>
    simp only [Check.eval_bind_iff, Check.eval_require_iff, beq_iff_eq, eval_check_iff,
      Check.eval_pure, Except.ok.injEq, exists_const, and_assoc, Option.some.injEq, forall_eq',
      Option.any_some, ← isNarrowed_selection roles index]
    constructor
    · intro h
      obtain ⟨hl, _, ha, rfl, rfl⟩ := h
      exact ⟨hl, ha, rfl⟩
    · intro h
      obtain ⟨hl, ha, rfl⟩ := h
      exact ⟨hl, _, ha, rfl, rfl⟩

theorem forall_mem_elements {root : Element} {p : Element → Prop} :
    (∀ node ∈ root.children, ∀ e, node.element? = some e → p e) ↔ ∀ e ∈ root.elements, p e := by
  simp only [Element.elements, List.mem_filterMap]
  exact ⟨fun h e ⟨node, hn, he⟩ => h node hn e he, fun h node hn e he => h e ⟨node, hn, he⟩⟩

theorem any_elements {root : Element} {p : Element → Bool} :
    root.elements.any p = root.children.any fun node => node.element?.any p := by
  rw [Element.elements, List.any_filterMap]
  rfl

theorem eval_getFeature_iff {root root' : Element} {narrowed : Bool} :
    (Check.getFeature index root).eval roles = .ok (root', narrowed) ↔
      root.elements ≠ [] ∧
      (∀ query ∈ root.elements, query.localName = "Query" ∧ Acceptable roles index query) ∧
      root' = narrowRoot roles index root ∧
      narrowed = root.elements.any fun query => (requested query).isEmpty := by
  simp only [Check.getFeature, Check.eval_bind_iff, Check.eval_mapM_iff_map eval_featureNode_iff,
    Check.eval_require_iff, Check.eval_pure, Except.ok.injEq, Prod.mk.injEq, exists_const,
    forall_mem_elements, any_elements, Bool.not_eq_true', List.isEmpty_eq_false_iff]
  constructor
  · intro h
    obtain ⟨_, ⟨hq, rfl⟩, hne, rfl, rfl⟩ := h
    exact ⟨hne, hq, by simp [narrowRoot], by simp [List.any_map, Function.comp_def]⟩
  · intro h
    obtain ⟨hne, hq, rfl, rfl⟩ := h
    exact ⟨_, ⟨hq, rfl⟩, hne, by simp [narrowRoot], by simp [List.any_map, Function.comp_def]⟩

theorem accepts_getFeature_iff {root : Element} :
    (Check.getFeature index root).Accepts roles ↔
      root.elements ≠ [] ∧
      ∀ query ∈ root.elements, query.localName = "Query" ∧ Acceptable roles index query := by
  simp only [Check.Accepts, Prod.exists, eval_getFeature_iff]
  constructor
  · intro h
    obtain ⟨_, _, hne, hq, -⟩ := h
    exact ⟨hne, hq⟩
  · intro h
    obtain ⟨hne, hq⟩ := h
    exact ⟨_, _, hne, hq, rfl, rfl⟩

/-! ## Node by node -/

/-- A node of an accepted document against the node that is forwarded for it. -/
inductive NodeNarrowed (roles : List Role) (index : LayerIndex) : Node → Node → Prop
  /-- A query that asks for nothing is to ask for the geometry and the viewable
  attributes of its layer, in elements of its own namespace that stand in front
  of what it holds. -/
  | listed {query : Element} {typeName tag : String} {names : List String}
      (unlisted : query.elementsNamed "PropertyName" = [])
      (layer : NamesType query typeName)
      (sorted : names.Pairwise (· < ·))
      (viewable : ∀ attr, attr ∈ names ↔ Viewable roles (index.resolve typeName) attr)
      (tagName : Text.localName tag = "PropertyName")
      (tagPrefix : Text.namePrefix? tag = query.namePrefix?) :
      NodeNarrowed roles index query.toNode (.element query.name query.attributes
        ((geometryProperty :: names).map (fun name => .element tag [] [.text name]) ++
          query.children))
  /-- Anything else stays as it is. -/
  | kept {node : Node}
      (listed : ∀ query, node.element? = some query → query.elementsNamed "PropertyName" ≠ []) :
      NodeNarrowed roles index node node

/-- The elements that ask for a property are named in the namespace of the
query. -/
theorem name_propertyElement (query : Element) (property : String) :
    Text.localName (propertyElement query property).name = "PropertyName" ∧
      Text.namePrefix? (propertyElement query property).name = query.namePrefix? := by
  have colon : ':' ∉ "PropertyName".toList := by decide
  rw [propertyElement, Element.ofText]
  cases query.namePrefix? with
  | none => exact ⟨Text.localName_of_colon_notMem colon, Text.namePrefix?_of_colon_notMem colon⟩
  | some ns =>
    show Text.localName (ns ++ ":PropertyName") = _ ∧ Text.namePrefix? (ns ++ ":PropertyName") = _
    rw [show ns ++ ":PropertyName" = ns ++ ":" ++ "PropertyName" by rw [String.append_assoc]; rfl]
    exact ⟨Text.localName_append colon, Text.namePrefix?_append colon⟩

theorem nodeNarrowed_narrowNode {node : Node}
    (h : ∀ query, node.element? = some query → Acceptable roles index query) :
    NodeNarrowed roles index node (narrowNode roles index node) := by
  rw [narrowNode]
  cases he : node.element? with
  | none => exact .kept (by simp [he])
  | some query =>
    obtain rfl := Node.toNode_of_element? he
    obtain ⟨typeName, hn, -⟩ := h query he
    by_cases hr : requested query = []
    · have hid : layerId index query = index.resolve typeName := by
        rw [layerId, typeName?_eq_some_iff.2 hn]; rfl
      have tag := name_propertyElement query
      simp only [selection, hr, List.isEmpty_nil, if_true, select, hid]
      exact .listed (requested_eq_nil_iff.1 hr) hn (sorted_viewableNames _ _)
        (fun _ => mem_viewableNames) (tag geometryProperty).1 (tag geometryProperty).2
    · simp only [selection, List.isEmpty_iff, hr, if_false, select]
      exact .kept (by simpa [he, ← requested_eq_nil_iff] using hr)

/-- A document is accepted when it holds queries only, at least one, and all of
them acceptable. Then it is forwarded with each query that asks for nothing
narrowed, and with nothing else changed. -/
theorem getFeature_exact (roles : List Role) (index : LayerIndex) (root : Element) :
    ((Check.getFeature index root).Accepts roles ↔
      root.elements ≠ [] ∧
      ∀ query ∈ root.elements, query.localName = "Query" ∧ Acceptable roles index query) ∧
    ∀ root' narrowed, (Check.getFeature index root).eval roles = .ok (root', narrowed) →
      root'.name = root.name ∧ root'.attributes = root.attributes ∧
      List.Forall₂ (NodeNarrowed roles index) root.children root'.children ∧
      (narrowed = true ↔ ∃ query ∈ root.elements, query.elementsNamed "PropertyName" = []) := by
  refine ⟨accepts_getFeature_iff, fun root' narrowed h => ?_⟩
  obtain ⟨-, hq, rfl, rfl⟩ := eval_getFeature_iff.1 h
  refine ⟨rfl, rfl, ?_, ?_⟩
  · rw [narrowRoot, List.forall₂_map_right_iff, List.forall₂_same]
    exact fun node hn => nodeNarrowed_narrowNode fun query he =>
      (forall_mem_elements.2 hq node hn query he).2
  · simp [requested_eq_nil_iff]

end FeatureQuery

end MapGate
