import MapGate.Proofs.Gate.Mediation
import MapGate.Proofs.Gate.RereadDocument

/-!
# Forwarded requests inspected again

A forwarded request is settled when its body is a document and it is accepted
again, as it is. Whether a narrowed request is settled depends on the names of the
attributes that may be viewed, which are written into it and read again:

* `settled_iff_parts`: a request is settled by its parameters and its body;
* `parametersSettled_iff`: whether forwarded parameters are settled;
* `bodySettled_iff`: whether a forwarded body is.
-/

namespace MapGate

open Xml

variable {roles : List Role} {index : LayerIndex}

namespace FeatureQuery

variable {params params' : Params} {narrowed : Bool}

/-! ## Parameters -/

/-- The operation does not depend on the list of properties. -/
theorem classify_forwardedParams (method : Method) (entries : List (String × List String)) :
    Operation.classify method (forwardedParams roles index params entries) =
      Operation.classify method params := by
  simp only [Operation.classify, get?_forwardedParams (show
    Text.sameName "PROPERTYNAME" "SERVICE" = false by decide), get?_forwardedParams (show
    Text.sameName "PROPERTYNAME" "REQUEST" = false by decide)]

theorem countGroup_set_of_ne {name value : String} {group : List String}
    (h : ∀ other ∈ group, Text.sameName name other = false) :
    (params.set name value).countGroup group = params.countGroup group := by
  have same : group.map (params.set name value).count = group.map params.count :=
    List.map_congr_left fun other hm => Params.count_set_of_ne (h other hm)
  rw [Params.countGroup, same, Params.countGroup]

/-- Parameters do not get repeated. -/
theorem unrepeated_forwardedParams (h : Unrepeated params) (entries : List (String × List String)) :
    Unrepeated (forwardedParams roles index params entries) := by
  have apart : ∀ group ∈ decisionParameters, group = ["PROPERTYNAME"] ∨
      ∀ name ∈ group, Text.sameName "PROPERTYNAME" name = false := by decide
  rw [forwardedParams]
  split
  · intro group hg
    rcases apart group hg with rfl | hn
    · simp [Params.countGroup, Params.count_set_self]
    · rw [countGroup_set_of_ne hn]
      exact h group hg
  · exact h

/-- The attributes that may be viewed keep their meaning in a list, and one entry
that it has because of them is not the geometry. -/
structure ListReread (roles : List Role) (id : String) (several : Prop) : Prop where
  survive : NamesSurvive roles id several
  asksAttribute : ∃ attr, Viewable roles id attr ∧
    ∃ entry ∈ Text.entries attr, Text.localName entry ≠ geometryProperty

theorem attributeOf_of_mem_rereadList {entry : String × List String} {p : String}
    (h : p ∈ rereadList roles index entry) : attributeOf p = Text.localName p := by
  obtain ⟨list, -, hp⟩ := List.mem_flatMap.1 h
  rw [attributeOf, (Text.of_mem_entries hp).1]

/-- A list that was made up is read back as one that may be asked for if the names
keep their meaning in it. -/
theorem askable_rereadList_iff {entry : String × List String} (h : entry.2 = []) {several : Prop} :
    (several → ∀ name ∈ forwardedList roles index entry, ¬ [')', '('] <:+: name.toList) ∧
      Askable roles (index.resolve entry.1) (rereadList roles index entry) ↔
      ListReread roles (index.resolve entry.1) several := by
  have viewable := @rereadList_viewable_iff roles index entry h several
  have geometry : Text.localName geometryProperty = geometryProperty := by decide
  constructor
  · intro h
    obtain ⟨hi, ha⟩ := h
    refine ⟨viewable.1 ⟨hi, ha.ne_nil, fun p hp => ?_⟩, ?_⟩
    · exact attributeOf_of_mem_rereadList hp ▸ ha.mayAsk p hp
    · obtain ⟨p, hp, hne⟩ := ha.asksAttribute
      rw [attributeOf_of_mem_rereadList hp] at hne
      rcases (mem_rereadList_of_nil h).1 hp with rfl | ⟨attr, hv, he⟩
      · exact absurd geometry hne
      · exact ⟨attr, hv, p, he, hne⟩
  · intro hl
    obtain ⟨hi, -, hm⟩ := viewable.2 hl.survive
    refine ⟨hi, fun p hp => attributeOf_of_mem_rereadList hp ▸ hm p hp, ?_⟩
    obtain ⟨attr, hv, p, he, hne⟩ := hl.asksAttribute
    have hp := (mem_rereadList_of_nil h).2 (.inr ⟨attr, hv, he⟩)
    exact ⟨p, hp, attributeOf_of_mem_rereadList hp ▸ hne⟩

/-- An accepted list is read back as one that may be asked for, if the names keep
their meaning in case that it was made up. -/
theorem Reads.askable_reread_iff {entries : List (String × List String)}
    (hr : Reads params entries) {entry : String × List String} (he : entry ∈ entries)
    (ha : ListAccepted roles index entry) :
    (1 < entries.length → ∀ name ∈ forwardedList roles index entry, ¬ [')', '('] <:+: name.toList) ∧
      Askable roles (index.resolve entry.1) (rereadList roles index entry) ↔
      (entry.2 = [] → ListReread roles (index.resolve entry.1) (1 < entries.length)) := by
  by_cases h : entry.2 = []
  · rw [askable_rereadList_iff h]
    exact ⟨fun hl _ => hl, fun hl => hl h⟩
  · obtain ⟨same, hi⟩ := hr.requested roles index he h
    rw [same]
    exact ⟨fun _ e => absurd e h, fun _ => ⟨hi, ha.list.resolve_right (h ·.1)⟩⟩

/-- Forwarded parameters are accepted as they are if all their lists are read back as
lists that may be asked for. -/
theorem eval_forwardedParams_iff_reread {entries : List (String × List String)}
    (hr : Reads params entries) (hne : typeNames params ≠ [])
    (ha : ∀ entry ∈ entries, ListAccepted roles index entry) :
    (Check.getFeatureParams index (forwardedParams roles index params entries)).eval roles =
        .ok (forwardedParams roles index params entries, false) ↔
      ∀ entry ∈ entries,
        (1 < entries.length → ∀ name ∈ forwardedList roles index entry,
          ¬ [')', '('] <:+: name.toList) ∧
        Askable roles (index.resolve entry.1) (rereadList roles index entry) := by
  rw [eval_getFeatureParams_iff]
  constructor
  · intro h entry hm
    obtain ⟨-, entries', hr', ha', -, hn⟩ := h
    obtain ⟨hi, rfl⟩ := (reads_forwardedParams_iff hr hne).1 hr'
    have hm' := List.mem_map_of_mem (f := fun entry => (entry.1, rereadList roles index entry)) hm
    have listed : rereadList roles index entry ≠ [] := by
      simpa using List.any_eq_false.1 hn.symm _ hm'
    exact ⟨fun hc => hi hc entry hm, (ha' _ hm').list.resolve_right (listed ·.1)⟩
  · intro hs
    let reread := entries.map fun entry => (entry.1, rereadList roles index entry)
    have reads : Reads (forwardedParams roles index params entries) reread :=
      (reads_forwardedParams_iff hr hne).2 ⟨fun hc entry hm => (hs entry hm).1 hc, rfl⟩
    have listed : reread.any (·.2.isEmpty) = false := List.any_eq_false.2 fun entry he => by
      obtain ⟨entry, hm, rfl⟩ := List.mem_map.1 he
      simpa using (hs entry hm).2.ne_nil
    have kept : forwardedParams roles index (forwardedParams roles index params entries) reread =
        forwardedParams roles index params entries :=
      if_neg (by rw [listed]; exact Bool.false_ne_true)
    refine ⟨by rwa [typeNames_forwardedParams], reread, reads, fun entry he => ?_, kept.symm,
      listed.symm⟩
    obtain ⟨entry, hm, rfl⟩ := List.mem_map.1 he
    exact ⟨(ha entry hm).layer, .inl (hs entry hm).2⟩

/-- Forwarded parameters are accepted as they are if the names keep their meaning in
the lists that type names without a list are given. -/
theorem eval_forwardedParams_iff
    (accepted : (Check.getFeatureParams index params).eval roles = .ok (params', narrowed)) :
    (Check.getFeatureParams index params').eval roles = .ok (params', false) ↔
      ∀ typeName, Unlisted params typeName →
        ListReread roles (index.resolve typeName) (1 < (typeNames params).length) := by
  obtain ⟨hne, entries, hr, ha, rfl, -⟩ := eval_getFeatureParams_iff.1 accepted
  rw [eval_forwardedParams_iff_reread hr hne ha]
  simp only [hr.unlisted_iff, ← hr.length]
  constructor
  · intro h typeName hm
    exact (hr.askable_reread_iff hm (ha _ hm)).1 (h _ hm) rfl
  · intro h entry hm
    exact (hr.askable_reread_iff hm (ha _ hm)).2 fun e => h entry.1 (e ▸ hm)

end FeatureQuery

namespace Check

variable {request request' : Request} {context : PermissionContext}

/-! ## Settled requests -/

/-- A body is read as a document that is accepted, in which every query says what
it asks for. -/
def BodySettled (roles : List Role) (index : LayerIndex) (body : ByteArray) : Prop :=
  ∃ document, Document.ofBytes body = .ok document ∧
    DocumentAccepted roles index document.root ∧ narrowsDocument document.root = false

/-- The parameters are accepted as they are. -/
def ParametersSettled (roles : List Role) (index : LayerIndex) (method : Method)
    (params : Params) : Prop :=
  Unrepeated params ∧ ParametersAccepted roles index params (Operation.classify method params) ∧
    ParametersForwarded roles index (Operation.classify method params) params params false

/-- The body of a request is a document, and inspected, the request is accepted and
does not change. -/
def Settled (context : PermissionContext) (index : LayerIndex) (request : Request) : Prop :=
  (∃ document, Document.ofBytes request.body = .ok document) ∧
    ∃ operation, request.inspect index (some context) = .ok (⟨operation, false⟩, request)

theorem readsBody_of_ofBytes {document : Document}
    (h : Document.ofBytes request.body = .ok document) : readsBody request = true :=
  readsBody_iff.2 (.inr (isEmpty_of_ofBytes h))

/-- A request is settled if its parameters and its body are. -/
theorem settled_iff_parts : Settled context index request ↔
    ParametersSettled context.roles index request.method request.params ∧
      BodySettled context.roles index request.body := by
  simp only [Settled, inspect_eq_ok_iff, eval_request_iff]
  constructor
  · intro h
    obtain ⟨⟨document, hd⟩, operation, hu, hp, params', narrowed, hf, hb⟩ := h
    rw [if_pos (readsBody_of_ofBytes hd)] at hb
    obtain ⟨document', hd', ha, e⟩ := hb
    obtain ⟨found, same⟩ := Prod.mk.inj e
    have unchanged : false = (narrowed || narrowsDocument document'.root) := by
      rw [Inspection.mk.injEq] at found
      exact found.2
    obtain ⟨rfl, hn⟩ := Bool.or_eq_false_iff.1 unchanged.symm
    rw [forwardDocument, hn, if_neg Bool.false_ne_true] at same
    have kept : params' = request.params := (congrArg Request.params same).symm
    exact ⟨⟨hu, hp, kept ▸ hf⟩, document', hd', ha, hn⟩
  · intro h
    obtain ⟨⟨hu, hp, hf⟩, document, hd, ha, hn⟩ := h
    refine ⟨⟨document, hd⟩,
      reportedOperation (Operation.classify request.method request.params) document.root,
      hu, hp, request.params, false, hf, ?_⟩
    rw [if_pos (readsBody_of_ofBytes hd)]
    refine ⟨document, hd, ha, ?_⟩
    rw [forwardDocument, hn, if_neg Bool.false_ne_true]
    rfl

/-! ## Forwarded requests -/

/-- Accepted parameters are settled when they are forwarded, but for the names in
lists of a feature query. -/
theorem parametersSettled_iff {method : Method} {params params' : Params} {narrowed : Bool}
    (hu : Unrepeated params)
    (hp : ParametersAccepted roles index params (Operation.classify method params))
    (hf : ParametersForwarded roles index (Operation.classify method params) params params' narrowed) :
    ParametersSettled roles index method params' ↔
      (Operation.classify method params = .getFeatureKvp →
        ∀ typeName, FeatureQuery.Unlisted params typeName →
          FeatureQuery.ListReread roles (index.resolve typeName)
            (1 < (FeatureQuery.typeNames params).length)) := by
  by_cases hk : Operation.classify method params = .getFeatureKvp
  · rw [ParametersForwarded, if_pos hk] at hf
    obtain ⟨-, entries, -, -, e, -⟩ := FeatureQuery.eval_getFeatureParams_iff.1 hf
    have same : Operation.classify method params' = .getFeatureKvp := by
      rw [e, FeatureQuery.classify_forwardedParams, hk]
    have unrepeated : Unrepeated params' := e ▸ FeatureQuery.unrepeated_forwardedParams hu entries
    rw [← FeatureQuery.eval_forwardedParams_iff hf, ParametersSettled, same, ParametersForwarded,
      if_pos rfl]
    exact ⟨fun h _ => h.2.2, fun h => ⟨unrepeated, ⟨_, h hk⟩, h hk⟩⟩
  · rw [ParametersForwarded, if_neg hk] at hf
    obtain ⟨rfl, -⟩ := hf
    refine ⟨fun _ e => absurd e hk, fun _ => ⟨hu, hp, ?_⟩⟩
    rw [ParametersForwarded, if_neg hk]
    exact ⟨rfl, rfl⟩

theorem narrowsDocument_eq_false_iff {root : Element} (h : root.localName = "GetFeature") :
    narrowsDocument root = false ↔
      ∀ query ∈ root.elements, FeatureQuery.requested query ≠ [] := by
  simp [narrowsDocument, h]

theorem documentAccepted_iff {root : Element} (h : root.localName = "GetFeature") :
    DocumentAccepted roles index root ↔ (Check.getFeature index root).Accepts roles :=
  ⟨fun ha => ha.getFeature h, fun ha => ⟨fun _ => ha, fun e => absurd (h.symm.trans e) (by decide)⟩⟩

/-- The body of an accepted feature query is settled when it is forwarded, if its tags
are read back, but for the names that are put into it. -/
theorem bodySettled_iff {document : Document} (hd : Document.ofBytes request.body = .ok document)
    (ha : DocumentAccepted roles index document.root) (hr : document.root.localName = "GetFeature")
    (tags : narrowsDocument document.root = true →
      (FeatureQuery.narrowRoot roles index document.root).toNode.TagsRead) :
    BodySettled roles index (forwardDocument roles index request document).body ↔
      ∀ query ∈ document.root.elements, FeatureQuery.requested query = [] →
        FeatureQuery.NamesReread roles (FeatureQuery.layerId index query) := by
  cases hn : narrowsDocument document.root with
  | false =>
    have listed := (narrowsDocument_eq_false_iff hr).1 hn
    rw [forwardDocument, hn, if_neg Bool.false_ne_true]
    exact ⟨fun _ query hm h => absurd h (listed query hm), fun _ => ⟨document, hd, ha, hn⟩⟩
  | true =>
    let root := FeatureQuery.narrowRoot roles index document.root
    have read := FeatureQuery.ofBytes_narrowed (Document.reads_of_ofBytes hd) (tags hn)
    have named : root.joined.localName = "GetFeature" := hr
    rw [forwardDocument, hn, if_pos rfl,
      ← FeatureQuery.accepts_reread_iff ((documentAccepted_iff hr).1 ha)]
    have only : BodySettled roles index (Document.mk document.declaration? root).render.toUTF8 ↔
        DocumentAccepted roles index root.joined ∧ narrowsDocument root.joined = false := by
      rw [BodySettled, read]
      constructor
      · intro h
        obtain ⟨document', e, h⟩ := h
        obtain rfl := Except.ok.inj e
        exact h
      · exact fun h => ⟨_, rfl, h⟩
    exact only.trans (and_congr (documentAccepted_iff named) (narrowsDocument_eq_false_iff named))

theorem method_forwardDocument (document : Document) :
    (forwardDocument roles index request document).method = request.method := by
  rw [forwardDocument]
  split <;> rfl

theorem params_forwardDocument (document : Document) :
    (forwardDocument roles index request document).params = request.params := by
  rw [forwardDocument]
  split <;> rfl

/-- An accepted request with a feature query in its body is settled when it is
forwarded exactly if its body is, and the attributes that were listed in the
parameters keep their meaning there. A body with tags that are read back as they are
written is settled exactly if the attributes keep their meaning that were put into
the queries without a list. -/
theorem settled_forwarded_iff {inspection : Inspection} {document : Document}
    (accepted : request.inspect index (some context) = .ok (inspection, request'))
    (parsed : Document.ofBytes request.body = .ok document)
    (root : document.root.localName = "GetFeature") :
    (Settled context index request' ↔
      BodySettled context.roles index request'.body ∧
      (Operation.classify request.method request.params = .getFeatureKvp →
        ∀ typeName, FeatureQuery.Unlisted request.params typeName →
          FeatureQuery.ListReread context.roles (index.resolve typeName)
            (1 < (FeatureQuery.typeNames request.params).length))) ∧
    ((narrowsDocument document.root = true →
        (FeatureQuery.narrowRoot context.roles index document.root).toNode.TagsRead) →
      (BodySettled context.roles index request'.body ↔
        ∀ query ∈ document.root.elements, query.elementsNamed "PropertyName" = [] →
          FeatureQuery.NamesReread context.roles (FeatureQuery.layerId index query))) := by
  obtain ⟨hu, he⟩ := inspect_eq_ok_iff.1 accepted
  obtain ⟨hp, params', narrowed, hf, hb⟩ := eval_request_iff.1 he
  rw [if_pos (readsBody_of_ofBytes parsed)] at hb
  obtain ⟨document', hd, ha, e⟩ := hb
  obtain rfl : document = document' := Except.ok.inj (parsed.symm.trans hd)
  obtain ⟨-, rfl⟩ := Prod.mk.inj e
  refine ⟨?_, fun tags => ?_⟩
  · rw [settled_iff_parts, method_forwardDocument, params_forwardDocument,
      parametersSettled_iff hu hp hf, and_comm]
  · simp only [← FeatureQuery.requested_eq_nil_iff]
    exact bodySettled_iff parsed ha root tags

/-- A document with one query, which asks for nothing. -/
def oneQuery : Document := ⟨none, "GetFeature", [], [.element "Query" [("typeName", "roads")] []]⟩

/-- The query as it is posted. -/
def postedQuery : Request where
  method := .post
  params := ⟨[("SERVICE", "WFS")]⟩
  headers := ⟨[]⟩
  body := "<GetFeature><Query typeName=\"roads\"/></GetFeature>".toUTF8
  publicPath := "/ows/a/b"

theorem every_isPlain_oneQuery : oneQuery.root.toNode.Every Node.IsPlain := by
  have keys : PlainKeys [("typeName", "roads")] := fun entry he => by
    rw [List.mem_singleton.1 he]; decide
  refine Node.every_element.2 ⟨⟨by decide, List.forall_mem_nil _⟩, fun node hn => ?_⟩
  rw [List.mem_singleton.1 hn]
  exact Node.every_element.2 ⟨⟨by decide, keys⟩, List.forall_mem_nil _⟩

theorem ofBytes_postedQuery : Document.ofBytes postedQuery.body = .ok oneQuery := by
  have attributes : AttributesWellFormed [("typeName", "roads")] := by
    refine ⟨fun entry he => ?_, by simp⟩
    rw [List.mem_singleton.1 he]
    exact PlainName.keyReads (by decide)
  have content : oneQuery.root.toNode.ContentReads := by
    refine Node.every_element.2 ⟨⟨List.forall_mem_nil _, List.nodup_nil⟩, fun node hn => ?_⟩
    rw [List.mem_singleton.1 hn]
    exact Node.every_element.2 ⟨attributes, List.forall_mem_nil _⟩
  have text : oneQuery.render = "<GetFeature><Query typeName=\"roads\"/></GetFeature>" := by
    decide
  rw [postedQuery, Document.ofBytes_toUTF8, ← text]
  exact Document.ofChars_render (fun _ e => nomatch e) (.of_plain every_isPlain_oneQuery) content

theorem localName_oneQuery : oneQuery.root.localName = "GetFeature" := by decide

theorem inspect_postedQuery
    (h : (Check.getFeature index oneQuery.root).Accepts roles) :
    postedQuery.inspect index (some (.ofRoles roles)) =
      .ok (⟨.getFeature, true⟩, forwardDocument roles index postedQuery oneQuery) := by
  have operation : Operation.classify postedQuery.method postedQuery.params = .wfsDocument := by
    decide
  have unrepeated : Unrepeated postedQuery.params := by
    rw [← repeated?_eq_none_iff]; decide
  have reported : reportedOperation .wfsDocument oneQuery.root = .getFeature := by decide
  have narrows : narrowsDocument oneQuery.root = true := by decide
  refine inspect_eq_ok_iff.2 ⟨unrepeated, eval_request_iff.2 ?_⟩
  simp only [operation, readsBody_of_ofBytes ofBytes_postedQuery, if_true]
  refine ⟨trivial, postedQuery.params, false, ⟨rfl, rfl⟩, oneQuery, ofBytes_postedQuery,
    (documentAccepted_iff localName_oneQuery).2 h, ?_⟩
  rw [reported, narrows, Bool.or_true]
  rfl

theorem tagsRead_narrowRoot_oneQuery :
    (FeatureQuery.narrowRoot roles index oneQuery.root).toNode.TagsRead :=
  .of_plain (FeatureQuery.every_isPlain_narrowRoot every_isPlain_oneQuery)

open FeatureQuery (oneAttribute)

theorem settled_name : ∃ request',
    postedQuery.inspect (.ofLayers (oneAttribute "name").layers)
        (some (.ofRoles (oneAttribute "name").roles)) =
      .ok (⟨.getFeature, true⟩, request') ∧
    Document.ofBytes postedQuery.body = .ok oneQuery ∧ oneQuery.root.localName = "GetFeature" ∧
    Settled (.ofRoles (oneAttribute "name").roles)
      (.ofLayers (oneAttribute "name").layers) request' := by
  have queried : (getFeature (.ofLayers (oneAttribute "name").layers)
      oneQuery.root).Accepts (oneAttribute "name").roles := ⟨_, rfl⟩
  have accepted := inspect_postedQuery queried
  have settled := settled_forwarded_iff accepted ofBytes_postedQuery localName_oneQuery
  have operation : Operation.classify postedQuery.method postedQuery.params ≠ .getFeatureKvp := by
    decide
  have found : attributeOf "name" = "name" := by decide
  have body := (settled.2 fun _ => tagsRead_narrowRoot_oneQuery).2
  refine ⟨_, accepted, ofBytes_postedQuery, localName_oneQuery,
    settled.1.2 ⟨body fun query hm _ => ?_, fun e => absurd e operation⟩⟩
  obtain rfl := List.mem_singleton.1 hm
  refine ⟨fun attr ha => ?_, "name", mem_viewableNames.1 ?_, ?_⟩
  · obtain rfl := FeatureQuery.eq_of_viewable_oneAttribute ha
    exact .inr (found.symm ▸ ha.2)
  · show "name" ∈ ["name"]
    exact List.mem_singleton_self _
  · rw [found]; decide

/-- A colon in the name of an attribute: the document that is forwarded asks for an
attribute of another name, which may not be viewed. -/
theorem exists_not_settled :
    let settings := oneAttribute "ns:name"
    let roles := applicableRoles .anonymous settings.roles
    settings.validate = .ok settings ∧ Document.ofBytes postedQuery.body = .ok oneQuery ∧
      oneQuery.root.localName = "GetFeature" ∧
      ∃ inspection request',
        postedQuery.inspect (.ofLayers settings.layers) (some (.ofRoles roles)) =
          .ok (inspection, request') ∧
        ¬ Settled (.ofRoles roles) (.ofLayers settings.layers) request' := by
  have queried : (getFeature (.ofLayers (oneAttribute "ns:name").layers)
      oneQuery.root).Accepts (oneAttribute "ns:name").roles := ⟨_, rfl⟩
  have viewable : Viewable (oneAttribute "ns:name").roles "r" "ns:name" :=
    mem_viewableNames.1 (by show "ns:name" ∈ ["ns:name"]; exact List.mem_singleton_self _)
  have found : attributeOf "ns:name" = "name" := by decide
  refine ⟨rfl, ofBytes_postedQuery, localName_oneQuery, _, _, inspect_postedQuery queried,
    fun settled => ?_⟩
  have body := (settled_iff_parts.1 settled).2
  have names := (bodySettled_iff ofBytes_postedQuery ((documentAccepted_iff localName_oneQuery).2 queried)
    localName_oneQuery
    fun _ => tagsRead_narrowRoot_oneQuery).1 body _ (List.mem_singleton_self _) rfl
  rcases found ▸ names.mayAsk "ns:name" viewable with h | h
  · exact absurd h (by decide)
  · exact absurd (has_attributeFlags_iff.2 h) (Bool.eq_false_iff.1 rfl)

end Check

end MapGate
