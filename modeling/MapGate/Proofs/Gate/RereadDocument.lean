import MapGate.Proofs.Gate.FeatureDocument
import MapGate.Proofs.Xml.Parsed
import MapGate.Proofs.Xml.PlainNames

/-!
# Narrowed documents read back

A document that was narrowed is read back as what it was narrowed to, when its
tags are read back as they are written (`ofBytes_narrowed`); plain names are
enough for that (`every_isPlain_narrowRoot`). Then it asks for the properties that
were put into it, and whether it may ask for them depends on the names of the
attributes: they are trimmed, and cut down to their local part (`NamesReread`,
`accepts_reread_iff`).
-/

namespace MapGate.FeatureQuery

open Xml

variable {roles : List Role} {index : LayerIndex} {query root : Element}

/-! ## What narrowing puts into a document -/

/-- What holds of a query whatever it contains, and of the elements that are put into
it, holds of the query when its selection is made. -/
theorem every_select {p : Node → Prop} (hq : query.toNode.Every p)
    (element : p query.toNode → ∀ children, p (.element query.name query.attributes children))
    (property : ∀ name, (propertyElement query name).toNode.Every p) (selection : Selection) :
    (select query selection).toNode.Every p := by
  have h := Element.every_toNode.1 hq
  cases selection with
  | requested => exact hq
  | narrowed properties =>
    refine Node.every_element.2 ⟨element h.1 _, fun node hn => ?_⟩
    rcases List.mem_append.1 hn with hn | hn
    · obtain ⟨name, -, rfl⟩ := List.mem_map.1 hn
      exact property name
    · exact h.2 node hn

theorem every_narrowRoot {p : Node → Prop} (hr : root.toNode.Every p)
    (element : ∀ name attributes children children', p (.element name attributes children) →
      p (.element name attributes children'))
    (property : ∀ query : Element, p query.toNode → ∀ name,
      (propertyElement query name).toNode.Every p) :
    (narrowRoot roles index root).toNode.Every p := by
  have h := Element.every_toNode.1 hr
  refine Node.every_element.2 ⟨element _ _ _ _ h.1, fun node hn => ?_⟩
  obtain ⟨node, hm, rfl⟩ := List.mem_map.1 hn
  rw [narrowNode]
  cases he : node.element? with
  | none => exact h.2 node hm
  | some query =>
    obtain rfl := Node.toNode_of_element? he
    have hq := h.2 _ hm
    exact every_select hq (fun hp _ => element _ _ _ _ hp) (property query hq.self) _

theorem contentReads_narrowRoot (h : root.toNode.ContentReads) :
    (narrowRoot roles index root).toNode.ContentReads :=
  every_narrowRoot h (fun _ _ _ _ h => h) fun query _ name =>
    Node.every_element.2 ⟨⟨List.forall_mem_nil _, List.nodup_nil⟩, fun node hn => by
      rw [List.mem_singleton.1 hn]
      exact Node.every_of_element?_eq_none rfl trivial⟩

theorem plainName_propertyElement (h : PlainName query.name) (property : String) :
    PlainName (propertyElement query property).name := by
  have tag : PlainName "PropertyName" := by decide
  rw [propertyElement, Element.ofText]
  dsimp only
  split
  · rename_i ns hns
    obtain ⟨rest, e⟩ := Text.exists_toList_of_namePrefix? hns
    have text : (ns ++ ":PropertyName").toList = ns.toList ++ ":PropertyName".toList :=
      String.toList_append
    show PlainName (ns ++ ":PropertyName")
    refine ⟨?_, fun c hc => ?_⟩
    · obtain ⟨first, tail, e', hb, hq⟩ := h.starts
      cases hn : ns.toList with
      | nil => exact ⟨':', _, by rw [text, hn]; rfl, by decide, by decide⟩
      | cons c l =>
        rw [e', hn, List.cons_append] at e
        obtain ⟨rfl, -⟩ := List.cons.inj e
        exact ⟨first, _, by rw [text, hn, List.cons_append], hb, hq⟩
    · rw [text, List.mem_append] at hc
      rcases hc with hc | hc
      · exact h.plain c (by rw [e]; exact List.mem_append_left _ hc)
      · exact List.all_eq_true.1 (by decide : ":PropertyName".toList.all isPlain = true) c hc
  · exact tag

/-- What is put into a document is named as plainly as the queries in it. -/
theorem every_isPlain_narrowRoot (h : root.toNode.Every Node.IsPlain) :
    (narrowRoot roles index root).toNode.Every Node.IsPlain :=
  every_narrowRoot h (fun _ _ _ _ h => h) fun query hq name =>
    Node.every_element.2 ⟨⟨plainName_propertyElement hq.1 name, List.forall_mem_nil _⟩,
      fun node hn => by
        rw [List.mem_singleton.1 hn]
        exact Node.every_of_element?_eq_none rfl trivial⟩

/-! ## What it asks for -/

theorem elements_narrowRoot : (narrowRoot roles index root).elements =
    root.elements.map fun query => select query (selection roles index query) := by
  rw [Element.elements, narrowRoot, List.filterMap_map, Element.elements, List.map_filterMap]
  refine congrArg (List.filterMap · root.children) (funext fun node => ?_)
  rw [Function.comp_apply, narrowNode]
  cases he : node.element? with
  | none => exact he
  | some query => rfl

theorem requested_joined : requested query.joined = requested query := by
  simp [requested, Element.elementsNamed_joined, Function.comp_def]

/-- A query that was given properties asks for them, and then for what it asked for
before. -/
theorem requested_select_narrowed (properties : List String) :
    requested (select query (.narrowed properties)) =
      properties.map Text.trim ++ requested query := by
  have elements : (select query (.narrowed properties)).elements =
      properties.map (propertyElement query) ++ query.elements := by
    rw [Element.elements, select, List.filterMap_append, List.filterMap_map]
    exact congrArg (· ++ _) (congrFun List.filterMap_eq_map' properties)
  have named : ∀ e ∈ properties.map (propertyElement query),
      (e.localName == "PropertyName") = true := fun e he => by
    obtain ⟨p, -, rfl⟩ := List.mem_map.1 he
    exact beq_iff_eq.2 (name_propertyElement query p).1
  rw [requested, Element.elementsNamed, elements, List.filter_append, List.filter_eq_self.2 named,
    List.map_append, List.map_map]
  refine congrArg (· ++ _) (List.map_congr_left fun p _ => ?_)
  exact Element.text_ofText _ p

/-- The attributes that may be viewed keep their meaning where they are asked for
by name: all of them are found by it, and one that is not the geometry. -/
structure NamesReread (roles : List Role) (id : String) : Prop where
  mayAsk : ∀ attr, Viewable roles id attr → MayAsk roles id (attributeOf attr)
  asksAttribute : ∃ attr, Viewable roles id attr ∧ attributeOf attr ≠ geometryProperty

theorem askable_trimmed_iff {id : String} :
    Askable roles id ((geometryProperty :: viewableNames roles id).map Text.trim) ↔
      NamesReread roles id := by
  have trimmed : ∀ p, attributeOf (Text.trim p) = attributeOf p := fun p => by
    rw [attributeOf, Text.trim_trim, ← attributeOf]
  have geometry : attributeOf geometryProperty = geometryProperty := by decide
  constructor
  · intro h
    refine ⟨fun attr ha => ?_, ?_⟩
    · have hm := List.mem_cons_of_mem geometryProperty (mem_viewableNames.2 ha)
      exact trimmed attr ▸ h.mayAsk _ (List.mem_map_of_mem hm)
    · obtain ⟨p, hp, hne⟩ := h.asksAttribute
      obtain ⟨attr, ha, rfl⟩ := List.mem_map.1 hp
      rw [trimmed] at hne
      rcases List.mem_cons.1 ha with rfl | ha
      · exact absurd geometry hne
      · exact ⟨attr, mem_viewableNames.1 ha, hne⟩
  · intro h
    refine ⟨fun p hp => ?_, ?_⟩
    · obtain ⟨attr, ha, rfl⟩ := List.mem_map.1 hp
      rw [trimmed]
      rcases List.mem_cons.1 ha with rfl | ha
      · exact .inl geometry
      · exact h.mayAsk attr (mem_viewableNames.1 ha)
    · obtain ⟨attr, ha, hne⟩ := h.asksAttribute
      have hm := List.mem_cons_of_mem geometryProperty (mem_viewableNames.2 ha)
      exact ⟨_, List.mem_map_of_mem hm, (trimmed attr).symm ▸ hne⟩

/-- A query is acceptable if it names a layer that may be queried, and asks for what
may be asked for. -/
theorem acceptable_iff : Acceptable roles index query ↔
    ∃ typeName, NamesType query typeName ∧
      (∀ c ∈ typeName.toList, c ≠ ',' ∧ Text.isBlank c = false) ∧
      PermitsLayer roles (index.resolve typeName) .query ∧
      if requested query = [] then ∃ attr, Viewable roles (index.resolve typeName) attr
      else Askable roles (index.resolve typeName) (requested query) := by
  simp only [Acceptable, requested_eq_nil_iff, askable_requested_iff]

/-- A query with other content is acceptable as far as what it asks for is. -/
theorem acceptable_congr {query' : Element} (ha : query'.attributes = query.attributes)
    (h : Acceptable roles index query) (hr : requested query' ≠ []) :
    Acceptable roles index query' ↔
      Askable roles (layerId index query) (requested query') := by
  obtain ⟨typeName, hn, hs, hl, -⟩ := acceptable_iff.1 h
  have same : typeName? query' = typeName? query := by
    simp only [typeName?, Element.attribute?, ha]
  have hn' := typeName?_eq_some_iff.2 hn
  rw [acceptable_iff, layerId, hn', Option.getD_some]
  simp only [if_neg hr, ← typeName?_eq_some_iff, same, hn', Option.some.injEq]
  constructor
  · intro h
    obtain ⟨_, rfl, -, -, h⟩ := h
    exact h
  · exact fun h => ⟨typeName, rfl, hs, hl, h⟩

theorem Acceptable.askable (h : Acceptable roles index query) (hr : requested query ≠ []) :
    Askable roles (layerId index query) (requested query) :=
  (acceptable_congr rfl h hr).1 h

/-- What is read back of an accepted query can be asked for if the names of the
attributes keep their meaning, in case that they were put into it. -/
theorem acceptable_reread_iff (h : Acceptable roles index query) :
    (Acceptable roles index (select query (selection roles index query)).joined ∧
      requested (select query (selection roles index query)).joined ≠ []) ↔
      (requested query = [] → NamesReread roles (layerId index query)) := by
  by_cases hr : requested query = []
  · have narrowed : selection roles index query =
        .narrowed (geometryProperty :: viewableNames roles (layerId index query)) := by
      rw [selection, hr]; rfl
    have lists : requested (select query (selection roles index query)).joined =
        (geometryProperty :: viewableNames roles (layerId index query)).map Text.trim := by
      rw [requested_joined, narrowed, requested_select_narrowed, hr, List.append_nil]
    have hne : requested (select query (selection roles index query)).joined ≠ [] := by
      rw [lists]; exact List.cons_ne_nil _ _
    have attributes : (select query (selection roles index query)).joined.attributes =
        query.attributes := by rw [narrowed]; rfl
    rw [and_iff_left hne, acceptable_congr attributes h hne, lists, askable_trimmed_iff]
    exact ⟨fun h _ => h, fun h => h hr⟩
  · have kept : selection roles index query = .requested := by
      rw [selection, if_neg (by simpa using hr)]
    have hne : requested query.joined ≠ [] := by rwa [requested_joined]
    have attributes : query.joined.attributes = query.attributes := rfl
    rw [kept, select, and_iff_left hne, acceptable_congr attributes h hne, requested_joined]
    exact ⟨fun _ e => absurd e hr, fun _ => h.askable hr⟩

/-- The narrowed document, read back, is accepted and narrowed no more if the names
of the attributes keep their meaning. -/
theorem accepts_reread_iff (h : (Check.getFeature index root).Accepts roles) :
    ((Check.getFeature index (narrowRoot roles index root).joined).Accepts roles ∧
      ∀ query ∈ (narrowRoot roles index root).joined.elements, requested query ≠ []) ↔
      ∀ query ∈ root.elements, requested query = [] → NamesReread roles (layerId index query) := by
  obtain ⟨hne, hq⟩ := accepts_getFeature_iff.1 h
  have elements : (narrowRoot roles index root).joined.elements =
      root.elements.map fun query => (select query (selection roles index query)).joined := by
    rw [Element.elements_joined, elements_narrowRoot, List.map_map]; rfl
  have named : ∀ query ∈ root.elements,
      (select query (selection roles index query)).joined.localName = "Query" := fun query hm => by
    rw [← (hq query hm).1]
    cases selection roles index query <;> rfl
  rw [accepts_getFeature_iff, elements]
  simp only [ne_eq, List.map_eq_nil_iff, List.forall_mem_map, hne, not_false_eq_true, true_and]
  constructor
  · intro h query hm
    obtain ⟨hs, hr⟩ := h
    exact (acceptable_reread_iff (hq query hm).2).1 ⟨(hs query hm).2, hr query hm⟩
  · intro hs
    have each := fun query hm => (acceptable_reread_iff (hq query hm).2).2 (hs query hm)
    exact ⟨fun query hm => ⟨named query hm, (each query hm).1⟩, fun query hm => (each query hm).2⟩

/-- The narrowed document is read back, if its tags are. -/
theorem ofBytes_narrowed {document : Document} (hd : document.Reads)
    (ht : (narrowRoot roles index document.root).toNode.TagsRead) :
    Document.ofBytes
        { document with root := narrowRoot roles index document.root }.render.toUTF8 =
      .ok ⟨document.declaration?, (narrowRoot roles index document.root).joined⟩ := by
  rw [Document.ofBytes_toUTF8]
  exact Document.ofChars_render hd.declaration ht (contentReads_narrowRoot hd.content)

end MapGate.FeatureQuery
