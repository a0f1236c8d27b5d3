import MapGate.Proofs.Gate.FeatureDocument
import MapGate.Proofs.Gate.PropertyGrammar

/-!
# One feature query in two forms

The same query can be stated in parameters (`InParams`) and in a document
(`inDocument`). Both are decided type by type, in the same way and in the same order
(`verdict_getFeatureParams`, `verdict_getFeature`), and what is forwarded is the
same query again, in the two forms (`inParams_forwardedParams`,
`narrowRoot_inDocument`).

Only a document keeps the names of attributes apart. The lists in the forwarded
parameters are read as those of the document exactly if no name that was put into
them holds a separator (`sameLists_forwarded_iff`).
-/

namespace MapGate

namespace FeatureQuery

open Xml

variable {roles : List Role} {index : LayerIndex} {params params' : Params}
  {entry : String × List String} {entries : List (String × List String)}

/-- A type name and a list of properties that can be stated in both forms. -/
structure Plain (entry : String × List String) : Prop where
  typeName_ne : entry.1 ≠ ""
  typeName : ∀ c ∈ entry.1.toList, c ≠ ',' ∧ Text.isBlank c = false
  trimmed : ∀ p ∈ entry.2, p ≠ "" ∧ Text.trim p = p
  property : ∀ p ∈ entry.2, ∀ c ∈ p.toList, c ≠ ',' ∧ c ≠ '(' ∧ c ≠ ')'

/-- The parameters state a query: the type names in one comma list, and unless
nothing is asked for, the properties in a plain list or in one list in parentheses
for each type. -/
structure InParams (params : Params) (entries : List (String × List String)) : Prop where
  typeNames : params.get? "TYPENAMES" = none
  typeName : params.get? "TYPENAME" = some (commaList (entries.map (·.1)))
  propertyName : params.get? "PROPERTYNAME" =
    if entries.all (·.2.isEmpty) then none else some (renderGroups (entries.map (·.2)))

/-- The element that asks for some properties of a type. -/
def queryElement (entry : String × List String) : Element :=
  ⟨"Query", [("typeName", entry.1)], entry.2.map fun p => .element "PropertyName" [] [.text p]⟩

/-- The root of the document that states a query. -/
def inDocument (entries : List (String × List String)) : Element :=
  ⟨"GetFeature", [], entries.map fun entry => (queryElement entry).toNode⟩

/-- The query that is forwarded for an accepted one. -/
def forwardedQuery (roles : List Role) (index : LayerIndex) (entries : List (String × List String)) :
    List (String × List String) :=
  entries.map fun entry => (entry.1, forwardedList roles index entry)

/-! ## The query in parameters -/

theorem Plain.trim_typeName (h : Plain entry) : Text.trim entry.1 = entry.1 := by
  rw [Text.trim, Text.trimChars_eq_self, String.ofList_toList]
  · exact fun c hc => (h.typeName c (List.mem_of_mem_head? hc)).2
  · exact fun c hc => (h.typeName c (List.mem_of_mem_getLast? hc)).2

theorem Plain.entries_typeName (h : Plain entry) : Text.entries entry.1 = [entry.1] :=
  Text.entries_eq_singleton h.trim_typeName h.typeName_ne fun hc => (h.typeName _ hc).1 rfl

theorem Plain.entries_property (h : Plain entry) : ∀ p ∈ entry.2, Text.entries p = [p] :=
  fun p hp => Text.entries_eq_singleton (h.trimmed p hp).2 (h.trimmed p hp).1
    fun hc => (h.property p hp _ hc).1 rfl

theorem Plain.holds_no_separator (h : Plain entry) :
    ∀ p ∈ entry.2, ¬ [')', '('] <:+: p.toList :=
  fun p hp hi => (h.property p hp ')' (hi.subset List.mem_cons_self)).2.2 rfl

theorem typeNames_of_inParams (plain : ∀ entry ∈ entries, Plain entry) (h : InParams params entries) :
    typeNames params = entries.map (·.1) := by
  rw [typeNames, h.typeNames, h.typeName]
  show Text.entries (commaList (entries.map (·.1))) = _
  rw [entries_commaList, Text.flatMap_entries_eq_self]
  rw [List.forall_mem_map]
  exact fun entry he => (plain entry he).entries_typeName

/-- A plain list of properties is read as it is. -/
theorem propertyGroups_of_plain (plain : Plain entry) (hne : entry.2 ≠ []) :
    propertyGroups (some (commaList entry.2)) 1 = .ok [entry.2] := by
  have read : Text.entries (commaList entry.2) = entry.2 := by
    rw [entries_commaList, Text.flatMap_entries_eq_self plain.entries_property]
  have listed : ListsProperties (some (commaList entry.2)) 1 [Text.entries (commaList entry.2)] := by
    refine .plain (fun e => hne ?_) fun e => ?_
    · rw [← read, ← Text.entries_trim, e]
      rfl
    · rw [Text.toList_trim] at e
      rcases mem_commaList (Text.mem_of_mem_trimChars (List.mem_of_mem_head? e)) with h | ⟨p, hp, hc⟩
      · cases h
      · exact (plain.property p hp _ hc).2.1 rfl
  rw [propertyGroups_of_listsProperties listed, read]

theorem reads_of_inParams (hne : entries ≠ []) (plain : ∀ entry ∈ entries, Plain entry)
    (h : InParams params entries) : Reads params entries := by
  have names := typeNames_of_inParams plain h
  refine ⟨entries.map (·.2), ?_, by rw [names, List.zip_map']; simp⟩
  rw [h.propertyName, names, List.length_map]
  split
  · rename_i hnil
    have same : entries.map (·.2) = List.replicate entries.length [] :=
      List.eq_replicate_iff.2 ⟨List.length_map .., List.forall_mem_map.2 fun entry he => by
        simpa using List.all_eq_true.1 hnil entry he⟩
    rw [same]
    rfl
  · rename_i hnil
    by_cases one : entries.length = 1
    · obtain ⟨entry, rfl⟩ := List.length_eq_one_iff.1 one
      exact propertyGroups_of_plain (plain entry (List.mem_singleton_self _)) (by simpa using hnil)
    · have several : (entries.map (·.2)).length ≠ 1 := by rwa [List.length_map]
      rw [← List.length_map (·.2), propertyGroups_renderGroups_iff (by simpa using hne) several,
        List.forall_mem_map, List.map_map]
      refine ⟨fun entry he => (plain entry he).holds_no_separator, ?_⟩
      exact List.map_congr_left fun entry he =>
        (Text.flatMap_entries_eq_self (plain entry he).entries_property).symm

/-- The query that is forwarded in parameters. -/
theorem inParams_forwardedParams (hne : entries ≠ []) (h : InParams params entries) :
    InParams (forwardedParams roles index params entries) (forwardedQuery roles index entries) := by
  have asks : (forwardedQuery roles index entries).all (·.2.isEmpty) = false := by
    obtain ⟨entry, he⟩ := List.exists_mem_of_ne_nil _ hne
    rw [List.all_eq_false]
    exact ⟨_, List.mem_map_of_mem he, by simp [forwardedList_ne_nil]⟩
  refine ⟨?_, ?_, ?_⟩
  · rw [get?_forwardedParams (by decide), h.typeNames]
  · rw [get?_forwardedParams (by decide), h.typeName, forwardedQuery, List.map_map]
    rfl
  · rw [asks, if_neg Bool.false_ne_true, forwardedQuery, List.map_map, forwardedParams]
    split
    · exact Params.get?_set_self
    · rename_i hnil
      have listed : ∀ entry ∈ entries, entry.2 ≠ [] := fun entry he => by
        simpa using List.any_eq_false.1 (Bool.eq_false_iff.2 hnil) entry he
      obtain ⟨entry, he⟩ := List.exists_mem_of_ne_nil _ hne
      have some : ¬ entries.all (·.2.isEmpty) = true := fun all =>
        listed entry he (by simpa using List.all_eq_true.1 all entry he)
      rw [h.propertyName, if_neg some]
      exact congrArg (fun lists => Option.some (renderGroups lists))
        (List.map_congr_left fun entry he => (forwardedList_of_ne_nil (listed entry he)).symm)

/-! ## The query in a document -/

theorem elements_inDocument (entries : List (String × List String)) :
    (inDocument entries).elements = entries.map queryElement := by
  simp [Element.elements, inDocument, List.filterMap_map, Function.comp_def]

theorem elementsNamed_queryElement (entry : String × List String) :
    (queryElement entry).elementsNamed "PropertyName" =
      entry.2.map fun p => .ofText "PropertyName" p := by
  have named : ∀ p, (Element.ofText "PropertyName" p).localName = "PropertyName" := fun _ =>
    Text.localName_of_colon_notMem (show ':' ∉ "PropertyName".toList by decide)
  have elements : (queryElement entry).elements = entry.2.map fun p => .ofText "PropertyName" p := by
    simp [Element.elements, queryElement, List.filterMap_map, Function.comp_def, Node.element?,
      Element.ofText]
  rw [Element.elementsNamed, elements, List.filter_eq_self, List.forall_mem_map]
  exact fun p _ => by simp [named]

theorem requested_queryElement (entry : String × List String) :
    requested (queryElement entry) = entry.2.map Text.trim := by
  rw [requested, elementsNamed_queryElement, List.map_map]
  exact List.map_congr_left fun p _ => Element.text_ofText "PropertyName" p

theorem Plain.requested (plain : Plain entry) : requested (queryElement entry) = entry.2 := by
  rw [requested_queryElement]
  conv_rhs => rw [← List.map_id entry.2]
  exact List.map_congr_left fun p hp => (plain.trimmed p hp).2

theorem Plain.typeName? (plain : Plain entry) : typeName? (queryElement entry) = some entry.1 := by
  have first : (queryElement entry).attribute? "typeName" = some entry.1 := by
    have named : Named "typeName" "typeName" := ⟨by decide, by decide⟩
    exact Element.attribute?_eq_some_iff.2 ⟨[], _, [], rfl, named, List.forall_mem_nil _⟩
  simp [FeatureQuery.typeName?, first, plain.trim_typeName, plain.typeName_ne]

/-- A query in a document is checked as the type name with its list is. -/
theorem Plain.eval_check (plain : Plain entry) :
    (check index (queryElement entry)).eval roles =
      (Check.featureGroup index entry.1 entry.2).eval roles := by
  have single : joinsLayers entry.1 = false := joinsLayers_eq_false_iff.2 plain.typeName
  simp only [check, plain.typeName?, plain.requested, Check.eval_bind, Check.eval_ofExcept,
    Check.eval_require, single, Bool.not_false, if_true, Check.featureGroup, Except.bind]

theorem Plain.eval_featureNode (plain : Plain entry) :
    (Check.featureNode index (queryElement entry).toNode).eval roles =
      ((Check.featureGroup index entry.1 entry.2).eval roles).map fun selection =>
        ((select (queryElement entry) selection).toNode, selection.isNarrowed) := by
  have named : (queryElement entry).localName = "Query" :=
    Text.localName_of_colon_notMem (show ':' ∉ "Query".toList by decide)
  simp only [Check.featureNode, Node.element?_toNode, Check.eval_bind, Check.eval_require, named,
    beq_self_eq_true, if_true, plain.eval_check, Check.eval_pure]
  cases (Check.featureGroup index entry.1 entry.2).eval roles <;> rfl

/-- A document fails as the first of its type names that fails with its list. -/
theorem verdict_getFeature (hne : entries ≠ []) (plain : ∀ entry ∈ entries, Plain entry) :
    verdict ((Check.getFeature index (inDocument entries)).eval roles) =
      verdict (entries.mapM fun entry => (Check.featureGroup index entry.1 entry.2).eval roles) := by
  have holds : (inDocument entries).elements ≠ [] := by
    rw [elements_inDocument]
    simpa using hne
  rw [Check.getFeature, Check.eval_bind, verdict_bind fun _ => by simp [holds, verdict, Except.map],
    Check.eval_mapM, inDocument, List.mapM_map]
  refine verdict_mapM_congr fun entry he => ?_
  rw [Function.comp_apply, (plain entry he).eval_featureNode]
  cases (Check.featureGroup index entry.1 entry.2).eval roles <;> rfl

/-- Parameters fail as the first of their type names that fails with its list. -/
theorem verdict_getFeatureParams (hne : typeNames params ≠ []) (h : Reads params entries) :
    verdict ((Check.getFeatureParams index params).eval roles) =
      verdict (entries.mapM fun entry => (Check.featureGroup index entry.1 entry.2).eval roles) := by
  obtain ⟨groups, hg, rfl⟩ := h
  have names : (!(typeNames params).isEmpty) = true := by simpa using hne
  have read : (propertyGroups (params.get? "PROPERTYNAME") (typeNames params).length).mapError
      GateError.malformed = .ok groups := by rw [hg]; rfl
  simp only [Check.getFeatureParams, Check.eval_bind, Check.eval_require, names, if_true, bind_ok,
    Check.eval_ofExcept, read]
  rw [verdict_bind fun _ => by split <;> rfl, Check.eval_mapM]
  refine verdict_mapM_congr fun entry _ => ?_
  rw [Check.eval_bind, verdict_bind fun _ => rfl]

/-! ## Both forms -/

theorem verdict_forms (hne : entries ≠ []) (plain : ∀ entry ∈ entries, Plain entry)
    (stated : InParams params entries) :
    verdict ((Check.getFeatureParams index params).eval roles) =
      verdict ((Check.getFeature index (inDocument entries)).eval roles) := by
  have names : typeNames params ≠ [] := by
    rw [typeNames_of_inParams plain stated]
    simpa using hne
  rw [verdict_getFeatureParams names (reads_of_inParams hne plain stated),
    verdict_getFeature hne plain]

/-- A node of the document that is forwarded. -/
theorem Plain.narrowNode (plain : Plain entry) :
    narrowNode roles index (queryElement entry).toNode =
      (queryElement (entry.1, forwardedList roles index entry)).toNode := by
  have id : layerId index (queryElement entry) = index.resolve entry.1 := by
    rw [layerId, plain.typeName?, Option.getD_some]
  rw [FeatureQuery.narrowNode, Node.element?_toNode]
  dsimp only
  rw [selection, plain.requested, id]
  by_cases h : entry.2 = []
  · have element : ∀ p, propertyElement (queryElement entry) p = .ofText "PropertyName" p := fun _ => by
      have unprefixed : (queryElement entry).namePrefix? = none :=
        Text.namePrefix?_of_colon_notMem (show ':' ∉ "Query".toList by decide)
      rw [propertyElement, unprefixed]
    rw [if_pos (by simp [h]), forwardedList_of_nil h, select]
    simp only [element]
    simp only [queryElement, h, List.map_nil, List.append_nil]
    rfl
  · rw [if_neg (by simpa using h), forwardedList_of_ne_nil h]
    rfl

/-- The document that is forwarded. -/
theorem narrowRoot_inDocument (plain : ∀ entry ∈ entries, Plain entry) :
    narrowRoot roles index (inDocument entries) = inDocument (forwardedQuery roles index entries) := by
  simp only [narrowRoot, inDocument, forwardedQuery, List.map_map, Element.mk.injEq, true_and]
  exact List.map_congr_left fun entry he => (plain entry he).narrowNode

/-- The parameters are read as the lists of properties that a document asks for. -/
def SameLists (params : Params) (root : Element) : Prop :=
  propertyGroups (params.get? "PROPERTYNAME") (typeNames params).length =
    .ok (root.elements.map requested)

/-- The name of an attribute can be told apart from others that are listed with it. -/
structure ToldApart (several : Prop) (attr : String) : Prop where
  comma : ',' ∉ attr.toList
  nonblank : Text.trim attr ≠ ""
  parentheses : several → ¬ [')', '('] <:+: attr.toList

/-- A list of properties is read from parameters as it is from a document exactly if
each name that was put into it can be told apart. -/
theorem Plain.toldApart_iff (plain : Plain entry) (several : Prop) :
    ((several → ∀ name ∈ forwardedList roles index entry, ¬ [')', '('] <:+: name.toList) ∧
      rereadList roles index entry = (forwardedList roles index entry).map Text.trim) ↔
      (entry.2 = [] → ∀ attr, Viewable roles (index.resolve entry.1) attr →
        ToldApart several attr) := by
  rw [rereadList, Text.flatMap_entries_eq_map_trim_iff]
  by_cases h : entry.2 = []
  · have geometry : ToldApart several geometryProperty :=
      ⟨by decide, by decide, fun _ hi => absurd (hi.subset List.mem_cons_self) (by decide)⟩
    simp only [forwardedList_of_nil h, List.forall_mem_cons, mem_viewableNames]
    constructor
    · intro told _ attr ha
      obtain ⟨parentheses, -, each⟩ := told
      exact ⟨(each attr ha).1, (each attr ha).2, fun hs => (parentheses hs).2 attr ha⟩
    · intro told
      exact ⟨fun hs => ⟨geometry.parentheses hs, fun attr ha => (told h attr ha).parentheses hs⟩,
        ⟨geometry.comma, geometry.nonblank⟩,
        fun attr ha => ⟨(told h attr ha).comma, (told h attr ha).nonblank⟩⟩
  · rw [forwardedList_of_ne_nil h]
    refine iff_of_true ⟨fun _ => plain.holds_no_separator, fun p hp => ?_⟩ fun hn => absurd hn h
    obtain ⟨hne, ht⟩ := plain.trimmed p hp
    exact ⟨fun hc => (plain.property p hp _ hc).1 rfl, by rwa [ht]⟩

/-- The lists of the forwarded parameters are those of the forwarded document exactly
if each name that was put into them can be told apart. -/
theorem sameLists_forwarded_iff (hne : entries ≠ []) (plain : ∀ entry ∈ entries, Plain entry)
    (h : InParams params entries) :
    SameLists (forwardedParams roles index params entries)
        (inDocument (forwardedQuery roles index entries)) ↔
      ∀ entry ∈ entries, entry.2 = [] → ∀ attr, Viewable roles (index.resolve entry.1) attr →
        ToldApart (1 < entries.length) attr := by
  have names := typeNames_of_inParams plain h
  have reads := reads_of_inParams hne plain h
  have lists : (inDocument (forwardedQuery roles index entries)).elements.map requested =
      entries.map fun entry => (forwardedList roles index entry).map Text.trim := by
    rw [elements_inDocument, forwardedQuery, List.map_map, List.map_map]
    exact List.map_congr_left fun entry _ => requested_queryElement _
  rw [SameLists, lists, ← reads_zip_iff (by rw [typeNames_forwardedParams, names, List.length_map,
    List.length_map]), typeNames_forwardedParams, names, List.zip_map',
    reads_forwardedParams_iff reads (by simpa [names] using hne), List.map_inj_left]
  simp only [Prod.mk.injEq, true_and]
  constructor
  · intro h entry he
    obtain ⟨apart, same⟩ := h
    exact ((plain entry he).toldApart_iff _).1 ⟨fun hs => apart hs entry he, (same entry he).symm⟩
  · intro told
    have each := fun entry he => ((plain entry he).toldApart_iff _).2 (told entry he)
    exact ⟨fun hs entry he => (each entry he).1 hs, fun entry he => (each entry he).2.symm⟩

/-- A query is decided alike in both forms: it fails with the same error, and when it
is accepted it is narrowed in both or in none, and forwarded as the same query in the
two forms. What is asked for of each type in the forwarded parameters is what is
asked for in the document exactly if each name that was put into a list can be told
apart from the others. -/
theorem forms_agree (hne : entries ≠ []) (plain : ∀ entry ∈ entries, Plain entry)
    (stated : InParams params entries) :
    (∀ e, (Check.getFeatureParams index params).eval roles = .error e ↔
      (Check.getFeature index (inDocument entries)).eval roles = .error e) ∧
    ∀ params' narrowed root' narrowed',
      (Check.getFeatureParams index params).eval roles = .ok (params', narrowed) →
      (Check.getFeature index (inDocument entries)).eval roles = .ok (root', narrowed') →
      narrowed = narrowed' ∧
      (∃ entries', InParams params' entries' ∧ root' = inDocument entries' ∧
        entries'.map (·.1) = entries.map (·.1)) ∧
      (SameLists params' root' ↔
        ∀ entry ∈ entries, entry.2 = [] → ∀ attr, Viewable roles (index.resolve entry.1) attr →
          ToldApart (1 < entries.length) attr) := by
  have reads := reads_of_inParams hne plain stated
  refine ⟨fun e => ?_, fun params' narrowed root' narrowed' hp hd => ?_⟩
  · rw [← verdict_eq_error_iff, verdict_forms hne plain stated, verdict_eq_error_iff]
  · obtain ⟨-, read, hr, -, rfl, rfl⟩ := eval_getFeatureParams_iff.1 hp
    obtain rfl := reads.unique hr
    obtain ⟨-, -, rfl, rfl⟩ := eval_getFeature_iff.1 hd
    rw [narrowRoot_inDocument plain]
    refine ⟨?_, ⟨_, inParams_forwardedParams hne stated, rfl, ?_⟩,
      sameLists_forwarded_iff hne plain stated⟩
    · rw [elements_inDocument, List.any_map, Bool.eq_iff_iff, List.any_eq_true, List.any_eq_true]
      exact exists_congr fun entry => and_congr_right fun he => by simp [(plain entry he).requested]
    · rw [forwardedQuery, List.map_map]
      rfl

theorem forms_agree_twoTypes :
    [("roads", ["name"]), ("ns:roads", [])] ≠ [] ∧
    (∀ entry ∈ [("roads", ["name"]), ("ns:roads", [])], Plain entry) ∧
    InParams ⟨[("TYPENAME", "roads,ns:roads"), ("PROPERTYNAME", "(name)()")]⟩
      [("roads", ["name"]), ("ns:roads", [])] ∧
    (Check.getFeatureParams (.ofLayers (oneAttribute "name").layers)
        ⟨[("TYPENAME", "roads,ns:roads"), ("PROPERTYNAME", "(name)()")]⟩).eval
        (oneAttribute "name").roles =
      .ok (⟨[("TYPENAME", "roads,ns:roads"), ("PROPERTYNAME", "(name)(geometry,name)")]⟩, true) ∧
    (Check.getFeature (.ofLayers (oneAttribute "name").layers)
        (inDocument [("roads", ["name"]), ("ns:roads", [])])).eval (oneAttribute "name").roles =
      .ok (inDocument [("roads", ["name"]), ("ns:roads", ["geometry", "name"])], true) ∧
    SameLists ⟨[("TYPENAME", "roads,ns:roads"), ("PROPERTYNAME", "(name)(geometry,name)")]⟩
      (inDocument [("roads", ["name"]), ("ns:roads", ["geometry", "name"])]) := by
  have plain : ∀ entry ∈ [("roads", ["name"]), ("ns:roads", [])], Plain entry := by
    simp only [List.forall_mem_cons]
    exact ⟨⟨by decide, joinsLayers_eq_false_iff.1 rfl, by decide, by simp⟩,
      ⟨by decide, joinsLayers_eq_false_iff.1 rfl, by decide, by simp⟩, List.forall_mem_nil _⟩
  have stated : InParams ⟨[("TYPENAME", "roads,ns:roads"), ("PROPERTYNAME", "(name)()")]⟩
      [("roads", ["name"]), ("ns:roads", [])] := ⟨rfl, rfl, rfl⟩
  have params : (Check.getFeatureParams (.ofLayers (oneAttribute "name").layers)
      ⟨[("TYPENAME", "roads,ns:roads"), ("PROPERTYNAME", "(name)()")]⟩).eval
      (oneAttribute "name").roles =
    .ok (⟨[("TYPENAME", "roads,ns:roads"), ("PROPERTYNAME", "(name)(geometry,name)")]⟩, true) := rfl
  have document : (Check.getFeature (.ofLayers (oneAttribute "name").layers)
      (inDocument [("roads", ["name"]), ("ns:roads", [])])).eval (oneAttribute "name").roles =
    .ok (inDocument [("roads", ["name"]), ("ns:roads", ["geometry", "name"])], true) := rfl
  refine ⟨by simp, plain, stated, params, document, ?_⟩
  refine ((forms_agree (by simp) plain stated).2 _ _ _ _ params document).2.2.2 ?_
  intro entry _ _ attr ha
  obtain rfl := eq_of_viewable_oneAttribute ha
  exact ⟨by decide, by decide, fun _ hi => absurd (hi.subset List.mem_cons_self) (by decide)⟩

/-- A comma in the name of an attribute: in parameters it is forwarded as two
properties, and in a document as one. -/
theorem not_sameLists_comma :
    let settings := oneAttribute "name,owner"
    let roles := applicableRoles .anonymous settings.roles
    let forwarded : Params := ⟨[("TYPENAME", "roads"), ("PROPERTYNAME", "geometry,name,owner")]⟩
    let root := inDocument [("roads", ["geometry", "name,owner"])]
    settings.validate = .ok settings ∧ Plain ("roads", []) ∧
      InParams ⟨[("TYPENAME", "roads")]⟩ [("roads", [])] ∧
      (Check.getFeatureParams (.ofLayers settings.layers) ⟨[("TYPENAME", "roads")]⟩).eval roles =
        .ok (forwarded, true) ∧
      (Check.getFeature (.ofLayers settings.layers) (inDocument [("roads", [])])).eval roles =
        .ok (root, true) ∧
      ¬ SameLists forwarded root := by
  refine ⟨rfl, ?_, ⟨rfl, rfl, rfl⟩, rfl, rfl, ?_⟩
  · exact ⟨by decide, joinsLayers_eq_false_iff.1 rfl, by decide, by simp⟩
  · intro same
    have lists : [["geometry", "name", "owner"]] = [["geometry", "name,owner"]] :=
      Except.ok.inj same
    exact absurd lists (by decide)

end FeatureQuery

end MapGate
