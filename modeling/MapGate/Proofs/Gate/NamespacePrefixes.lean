import MapGate.Proofs.Gate.TransactionDocument
import MapGate.Proofs.Gate.TwoRuns
import MapGate.Proofs.Xml.Prefixes

/-!
# Namespace prefixes in documents

Two documents that differ in namespace prefixes only are decided alike
(`authorize_reprefixed`). Layers are resolved and attributes are looked up by local
names, so each look-up finds the same in both, and only the words of a refusal differ.
A narrowed query gets its list in its own namespace, so that the narrowed documents still
differ in prefixes only.
-/

namespace MapGate

open Xml

variable {roles : List Role} {index : LayerIndex}

namespace Check

/-! ## Layers and attributes -/

theorem alike_requireLayer {layer layer' : String} (permission : Permission)
    (same : Text.localName layer' = Text.localName layer) :
    Alike Eq ((requireLayer index layer permission).eval roles)
      ((requireLayer index layer' permission).eval roles) := by
  have resolved : index.resolve layer' = index.resolve layer := by
    rw [LayerIndex.resolve, LayerIndex.resolve, same]
  rw [eval_requireLayer, eval_requireLayer, resolved]
  split
  · exact .ok rfl
  · exact .error (.denied _ _)

/-- The name of a layer is only told when one of its attributes is refused. -/
theorem alike_requireAttribute (id layer layer' attr : String) (permission : Permission) :
    Alike Eq ((requireAttribute id layer attr permission).eval roles)
      ((requireAttribute id layer' attr permission).eval roles) :=
  alike_bind_self fun _ => alike_require rfl (.denied _ _)

/-- Only the attributes count that a list of properties means. -/
theorem alike_selectProperties (id typeName typeName' : String) {requested requested' : List String}
    (same : requested'.map attributeOf = requested.map attributeOf) :
    Alike Eq ((selectProperties id typeName requested).eval roles)
      ((selectProperties id typeName' requested').eval roles) := by
  have empty : requested'.isEmpty = requested.isEmpty := by
    rw [← List.isEmpty_map (f := attributeOf), same, List.isEmpty_map]
  have attributes : requestedAttributes requested' = requestedAttributes requested := by
    rw [requestedAttributes, requestedAttributes, same]
  rw [selectProperties, selectProperties, empty, attributes]
  split
  · refine alike_bind_self fun _ => ?_
    exact alike_bind (alike_require rfl (.denied _ _)) fun _ _ _ => .ok rfl
  · refine alike_bind (alike_forM (R := Eq) (List.forall₂_refl _) ?_) fun _ _ _ => ?_
    · rintro attr _ rfl
      exact alike_requireAttribute _ _ _ _ _
    · exact alike_bind (alike_require rfl (.denied _ _)) fun _ _ _ => .ok rfl

end Check

theorem attributeOf_prefixed {e e' : Element} (h : Text.Prefixed e.text e'.text) :
    attributeOf e'.text = attributeOf e.text := by
  rw [FeatureQuery.attributeOf_text, FeatureQuery.attributeOf_text, h.localName]

/-! ## Queries -/

namespace FeatureQuery

variable {query query' : Element}

/-- The value that gives the type name. -/
theorem typeValue_reprefixed (h : query.Reprefixed query') :
    Option.Rel (fun value value' => Text.Prefixed (Text.trim value) (Text.trim value'))
      (query.attribute? "typeName" <|> query.attribute? "typeNames")
      (query'.attribute? "typeName" <|> query'.attribute? "typeNames") := by
  have first := h.attribute? "typeName" (by decide)
  have second := h.attribute? "typeNames" (by decide)
  generalize query.attribute? "typeName" = value? at first
  generalize query'.attribute? "typeName" = value?' at first
  cases first with
  | some related => exact .some related
  | none => exact second

theorem typeName?_reprefixed (h : query.Reprefixed query') :
    Option.Rel Text.Prefixed (typeName? query) (typeName? query') := by
  have given := typeValue_reprefixed h
  rw [typeName?, typeName?]
  generalize (query.attribute? "typeName" <|> query.attribute? "typeNames") = value? at given
  generalize (query'.attribute? "typeName" <|> query'.attribute? "typeNames") = value?' at given
  cases given with
  | none => exact .none
  | some related => exact related.filter_some related

theorem attributes_reprefixed (h : query.Reprefixed query') :
    (requested query').map attributeOf = (requested query).map attributeOf := by
  rw [requested, requested, List.map_map, List.map_map, eq_comm, ← List.forall₂_eq_eq_eq,
    List.forall₂_map_left_iff, List.forall₂_map_right_iff]
  refine (h.elementsNamed "PropertyName").imp fun child child' h => ?_
  obtain ⟨named, h⟩ := h
  exact (attributeOf_prefixed (h.text (named ▸ by decide))).symm

theorem joinsLayers_prefixed {typeName typeName' : String} (h : Text.Prefixed typeName typeName') :
    joinsLayers typeName' = joinsLayers typeName :=
  h.any_eq (by decide) fun c plain => by simp [plain]

theorem alike_typeName (h : query.Reprefixed query') : Alike Text.Prefixed
    (match typeName? query with
      | some typeName => .ok typeName
      | none => .error (.malformed (.noTypeName "Query")))
    (match typeName? query' with
      | some typeName => .ok typeName
      | none => .error (.malformed (.noTypeName "Query"))) := by
  have typeNames := typeName?_reprefixed h
  generalize FeatureQuery.typeName? query = typed? at typeNames
  generalize FeatureQuery.typeName? query' = typed?' at typeNames
  cases typeNames with
  | some related => exact .ok related
  | none => exact .error (.malformed _ _)

/-- A query is decided in the same way, whatever its prefixes. -/
theorem alike_check (h : query.Reprefixed query') :
    Alike Eq ((check index query).eval roles) ((check index query').eval roles) := by
  have typed := alike_typeName h
  rw [check, check]
  refine Check.alike_bind (by rwa [Check.eval_ofExcept, Check.eval_ofExcept]) ?_
  intro typeName typeName' related
  refine Check.alike_bind (Check.alike_require ?_ (.denied _ _)) fun _ _ _ => ?_
  · rw [joinsLayers_prefixed related]
  refine Check.alike_bind (Check.alike_requireLayer _ related.localName) ?_
  rintro id _ rfl
  exact Check.alike_selectProperties _ _ _ (attributes_reprefixed h)

/-- The elements that are put in front say the same, each in its own namespace. -/
theorem propertyElement_reprefixed (query query' : Element) (property : String) :
    (propertyElement query property).Reprefixed (propertyElement query' property) := by
  obtain ⟨named, -⟩ := name_propertyElement query property
  obtain ⟨named', -⟩ := name_propertyElement query' property
  refine .element (named'.trans named.symm) .nil (.cons (.text _ _) .nil) ?_
  rw [if_pos (named ▸ by decide)]
  exact .same

theorem select_reprefixed (h : query.Reprefixed query') (selection : Selection) :
    (select query selection).Reprefixed (select query' selection) := by
  cases selection with
  | requested => exact h
  | narrowed properties =>
    have silent : ∀ query : Element, (properties.map fun property =>
        (propertyElement query property).toNode).map Node.words = properties.map fun _ => [] := by
      intro query
      rw [List.map_map]
      rfl
    refine h.withChildren (List.rel_append ?_ h.children) ?_ ?_ fun kept => ?_
    · rw [List.forall₂_map_left_iff, List.forall₂_map_right_iff, List.forall₂_same]
      exact fun property _ => propertyElement_reprefixed query query' property
    · rw [List.flatMap_append, List.flatMap_def, silent]
      simp
    · rw [List.flatMap_append, List.flatMap_def, silent]
      simp
    · rw [List.map_append, List.map_append, silent, silent, kept]

/-- No words are added to a document. -/
theorem words_narrowNode (node : Node) : (narrowNode roles index node).words = node.words := by
  cases node <;> rfl

end FeatureQuery

namespace Check

open FeatureQuery

theorem alike_featureNode {node node' : Node} (h : node.Reprefixed node') :
    Alike (fun outcome outcome' => outcome.1.Reprefixed outcome'.1 ∧ outcome'.2 = outcome.2)
      ((featureNode index node).eval roles) ((featureNode index node').eval roles) := by
  have found := h.element?
  rw [featureNode, featureNode]
  generalize node.element? = query? at found
  generalize node'.element? = query?' at found
  cases found with
  | none => exact .ok ⟨h, rfl⟩
  | some related =>
    dsimp only
    refine alike_bind (alike_require (by rw [related.localName]) (.denied _ _)) fun _ _ _ => ?_
    refine alike_bind (alike_check related) ?_
    rintro selection _ rfl
    exact .ok ⟨select_reprefixed related selection, rfl⟩

/-- A `GetFeature` document is decided in the same way, whatever its prefixes. -/
theorem alike_getFeature {root root' : Element} (h : root.Reprefixed root') :
    Alike (fun outcome outcome' => outcome.1.Reprefixed outcome'.1 ∧ outcome'.2 = outcome.2)
      ((getFeature index root).eval roles) ((getFeature index root').eval roles) := by
  have words : ∀ (e : Element) nodes, (e.children.mapM (featureNode index)).eval roles = .ok nodes →
      (nodes.map (·.1)).map Node.words = e.children.map Node.words := by
    intro e nodes narrowed
    obtain ⟨-, rfl⟩ := (eval_mapM_iff_map eval_featureNode_iff).1 narrowed
    simp [Function.comp_def, words_narrowNode]
  rw [getFeature, getFeature]
  refine alike_bind (alike_mapM h.children fun _ _ => alike_featureNode).withResults ?_
  intro nodes nodes' narrowed
  obtain ⟨related, done, done'⟩ := narrowed
  refine alike_bind (alike_require (by rw [h.elements_isEmpty]) (.malformed _ _)) fun _ _ _ => ?_
  refine .ok ⟨h.withChildren ?_ ?_ ?_ ?_, ?_⟩
  · rw [List.forall₂_map_left_iff, List.forall₂_map_right_iff]
    exact related.imp fun _ _ h => h.1
  · rw [List.flatMap_def, words root nodes done, ← List.flatMap_def]
  · rw [List.flatMap_def, words root' nodes' done', ← List.flatMap_def]
  · rw [words root nodes done, words root' nodes' done']
    exact id
  · show nodes'.any (·.2) = nodes.any (·.2)
    clear done done'
    induction related with
    | nil => rfl
    | cons first _ ih => rw [List.any_cons, List.any_cons, first.2, ih]

end Check

/-! ## Transactions -/

namespace Transaction

variable {operation operation' property property' feature feature' : Element}

theorem alike_typeName (h : operation.Reprefixed operation') :
    Alike Text.Prefixed (typeName operation) (typeName operation') := by
  have typeNames := FeatureQuery.typeName?_reprefixed h
  rw [typeName, typeName]
  generalize FeatureQuery.typeName? operation = typed? at typeNames
  generalize FeatureQuery.typeName? operation' = typed?' at typeNames
  cases typeNames with
  | some related => exact .ok related
  | none => exact .error (.malformed _ _)

/-- The text of the first child that names a property. -/
theorem firstName_reprefixed (h : property.Reprefixed property') :
    Option.Rel (fun name name' => attributeOf name' = attributeOf name)
      (((nameElements property).head?.map (·.text)).filter (· ≠ ""))
      (((nameElements property').head?.map (·.text)).filter (· ≠ "")) := by
  have names := h.filter_elements fun name => name == "Name" || name == "ValueReference"
  rw [nameElements, nameElements]
  generalize (property.elements.filter fun e =>
    e.localName == "Name" || e.localName == "ValueReference") = l at names
  generalize (property'.elements.filter fun e =>
    e.localName == "Name" || e.localName == "ValueReference") = l' at names
  cases names with
  | nil => exact .none
  | cons first _ =>
    obtain ⟨named, related⟩ := first
    rw [Bool.or_eq_true, beq_iff_eq, beq_iff_eq] at named
    have text := related.text (by rcases named with named | named <;> rw [named] <;> decide)
    exact text.filter_some (attributeOf_prefixed text)

theorem alike_propertyName (h : property.Reprefixed property') :
    Alike (fun name name' => attributeOf name' = attributeOf name)
      (propertyName property) (propertyName property') := by
  have names := firstName_reprefixed h
  rw [nameElements, nameElements] at names
  rw [propertyName, propertyName]
  generalize ((property.elements.filter fun e =>
    e.localName == "Name" || e.localName == "ValueReference").head?.map (·.text)).filter
      (· ≠ "") = name? at names
  generalize ((property'.elements.filter fun e =>
    e.localName == "Name" || e.localName == "ValueReference").head?.map (·.text)).filter
      (· ≠ "") = name?' at names
  cases names with
  | some same => exact .ok same
  | none => exact .error (.malformed _ _)

end Transaction

namespace Check

variable {operation operation' feature feature' : Element}

theorem alike_updateOperation (h : operation.Reprefixed operation') :
    Alike Eq ((updateOperation index operation).eval roles)
      ((updateOperation index operation').eval roles) := by
  refine alike_bind (R := Text.Prefixed) ?_ fun typeName typeName' related => ?_
  · rw [eval_ofExcept, eval_ofExcept]
    exact Transaction.alike_typeName h
  refine alike_bind (alike_requireLayer _ related.localName) ?_
  rintro id _ rfl
  refine alike_forM (h.elementsNamed "Property") fun property property' h => ?_
  refine alike_bind (R := fun name name' => attributeOf name' = attributeOf name) ?_ ?_
  · rw [eval_ofExcept, eval_ofExcept]
    exact Transaction.alike_propertyName h.2
  · intro name name' same
    rw [same]
    exact alike_requireAttribute _ _ _ _ _

theorem alike_newFeature (h : feature.Reprefixed feature') :
    Alike Eq ((newFeature index feature).eval roles) ((newFeature index feature').eval roles) := by
  rw [newFeature, newFeature, h.localName]
  refine alike_bind_self fun _ => alike_forM h.elements fun property property' h => ?_
  rw [h.localName]
  exact .refl _

theorem alike_insertOperation (h : operation.Reprefixed operation') :
    Alike Eq ((insertOperation index operation).eval roles)
      ((insertOperation index operation').eval roles) := by
  refine alike_bind (alike_forM h.elements fun _ _ => alike_newFeature) fun _ _ _ => ?_
  exact alike_require (by rw [h.elements_isEmpty]) (.malformed _ _)

theorem alike_deleteOperation (h : operation.Reprefixed operation') :
    Alike Eq ((deleteOperation index operation).eval roles)
      ((deleteOperation index operation').eval roles) := by
  refine alike_bind (R := Text.Prefixed) ?_ fun typeName typeName' related => ?_
  · rw [eval_ofExcept, eval_ofExcept]
    exact Transaction.alike_typeName h
  · exact alike_bind (alike_requireLayer _ related.localName) fun _ _ _ => .ok rfl

theorem alike_operation (h : operation.Reprefixed operation') :
    Alike Eq ((Check.operation index operation).eval roles)
      ((Check.operation index operation').eval roles) := by
  rw [Check.operation, Check.operation, h.localName]
  by_cases update : operation.localName = "Update"
  · rw [if_pos update, if_pos update]
    exact alike_updateOperation h
  rw [if_neg update, if_neg update]
  by_cases insert : operation.localName = "Insert"
  · rw [if_pos insert, if_pos insert]
    exact alike_insertOperation h
  rw [if_neg insert, if_neg insert]
  by_cases delete : operation.localName = "Delete"
  · rw [if_pos delete, if_pos delete]
    exact alike_deleteOperation h
  rw [if_neg delete, if_neg delete]
  exact .refl _

/-- A transaction is decided in the same way, whatever its prefixes. -/
theorem alike_transaction {root root' : Element} (h : root.Reprefixed root') :
    Alike Eq ((transaction index root).eval roles) ((transaction index root').eval roles) := by
  refine alike_bind (alike_forM h.elements fun _ _ => alike_operation) fun _ _ _ => ?_
  exact alike_require (by rw [h.elements_isEmpty]) (.malformed _ _)

end Check

/-- Documents that differ in prefixes are decided alike: both are accepted, both are denied,
or both are malformed. What becomes of a narrowed document differs in prefixes only. -/
theorem authorize_reprefixed {root root' : Element} (h : root.Reprefixed root') :
    Alike (fun outcome outcome' => outcome.1.Reprefixed outcome'.1 ∧ outcome'.2 = outcome.2)
      ((Check.getFeature index root).eval roles) ((Check.getFeature index root').eval roles) ∧
    Alike Eq ((Check.transaction index root).eval roles)
      ((Check.transaction index root').eval roles) :=
  ⟨Check.alike_getFeature h, Check.alike_transaction h⟩

/-- Two queries on the roads, one for their names. The namespaces are put in front of the
names of elements, of the type name and of the property. -/
def queriesUnder (element typeName property : String) : Element :=
  ⟨element ++ "GetFeature", [], [
    .element (element ++ "Query") [("typeName", typeName ++ "roads")] [],
    .element (element ++ "Query") [("typeName", typeName ++ "roads")]
      [.element (element ++ "PropertyName") [] [.text (property ++ "name")]]]⟩

open Transaction (twoLayers) in
theorem authorize_queriesUnder :
    (queriesUnder "" "" "").Reprefixed (queriesUnder "wfs:" "city:" "c:") ∧
    Alike (fun outcome outcome' => outcome.1.Reprefixed outcome'.1 ∧ outcome'.2 = outcome.2)
      ((Check.getFeature (.ofLayers (twoLayers "buildings").layers) (queriesUnder "" "" "")).eval
        (twoLayers "buildings").roles)
      ((Check.getFeature (.ofLayers (twoLayers "buildings").layers)
        (queriesUnder "wfs:" "city:" "c:")).eval (twoLayers "buildings").roles) ∧
    (Check.getFeature (.ofLayers (twoLayers "buildings").layers) (queriesUnder "" "" "")).Accepts
      (twoLayers "buildings").roles := by
  have typed : AttributeReprefixed ("typeName", "roads") ("typeName", "city:roads") :=
    ⟨rfl, by rw [if_pos (by decide)]; exact .under_of_all "city" (by decide) (by decide)⟩
  have property : Node.Reprefixed (.element "PropertyName" [] [.text "name"])
      (.element "wfs:PropertyName" [] [.text "c:name"]) := by
    refine .element (by decide) .nil (.cons (.text _ _) .nil) ?_
    rw [if_pos (by decide)]
    exact .under_of_all "c" (by decide) (by decide)
  have reprefixed : (queriesUnder "" "" "").Reprefixed (queriesUnder "wfs:" "city:" "c:") := by
    refine .element (by decide) .nil (.cons ?_ (.cons ?_ .nil)) ?_
    · refine .element (by decide) (.cons typed .nil) .nil ?_
      rw [if_neg (by decide)]
    · refine .element (by decide) (.cons typed .nil) (.cons property .nil) ?_
      rw [if_neg (by decide)]
      rfl
    · rw [if_neg (by decide)]
      rfl
  exact ⟨reprefixed, (authorize_reprefixed reprefixed).1, _, rfl⟩

end MapGate
