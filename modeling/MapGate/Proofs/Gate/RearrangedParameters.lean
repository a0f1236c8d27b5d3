import MapGate.Proofs.Gate.RenderedLayers
import MapGate.Proofs.Gate.TwoRuns
import MapGate.Proofs.Ows.ParameterOrder

/-!
# Requests with rearranged parameters

Two requests that differ in the order of their parameters, in the case of names, and in
how `SERVICE` and `REQUEST` are spelled are decided alike (`inspect_rearranged`). Each
decision is read from a parameter that may occur once only, or from all of its kind:
the lists of a printed map are all looked at, in whatever order.
-/

namespace MapGate

variable {roles : List Role} {index : LayerIndex} {request request' : Request}
  {params params' : Params}

/-- The requests differ in how their parameters are arranged. -/
structure Request.Rearranges (request request' : Request) : Prop where
  method : request'.method = request.method
  headers : request'.headers = request.headers
  body : request'.body = request.body
  params : request.params.Rearranges request'.params

/-- What becomes of two such requests: the same is found out about them, and they still
differ in the arrangement of their parameters only, with the same list of properties. -/
structure SameDecision (outcome outcome' : Inspection × Request) : Prop where
  inspection : outcome'.1 = outcome.1
  request : outcome.2.Rearranges outcome'.2
  properties : outcome'.2.params.get? "PROPERTYNAME" = outcome.2.params.get? "PROPERTYNAME"

/-- The alternative names of the layers of a query do not occur together. -/
theorem Unrepeated.typeName_once (once : Unrepeated params) :
    params.count "TYPENAME" ≤ 1 ∧ params.count "TYPENAMES" ≤ 1 := by
  have both := once ["TYPENAME", "TYPENAMES"] (by decide)
  simp only [Params.countGroup, List.map_cons, List.map_nil, List.foldl_cons, List.foldl_nil] at both
  omega

section

variable (once : Unrepeated params) (arranged : params.Rearranges params')
include once arranged

theorem typeNames_rearranged :
    FeatureQuery.typeNames params = FeatureQuery.typeNames params' := by
  rw [FeatureQuery.typeNames, FeatureQuery.typeNames,
    arranged.get? once.typeName_once.1 (by decide) (by decide),
    arranged.get? once.typeName_once.2 (by decide) (by decide)]

theorem get?_propertyName_rearranged :
    params.get? "PROPERTYNAME" = params'.get? "PROPERTYNAME" :=
  arranged.get? (once.count_le_one (by decide)) (by decide) (by decide)

/-! ## Parameters -/

theorem alike_requireParameter {name : String} (decides : [name] ∈ decisionParameters)
    (service : Text.sameName name "SERVICE" = false) (asked : Text.sameName name "REQUEST" = false)
    (permission : Permission) :
    Alike Eq ((Check.requireParameter index params name permission).eval roles)
      ((Check.requireParameter index params' name permission).eval roles) := by
  rw [Check.requireParameter, Check.requireParameter,
    arranged.get? (once.count_le_one decides) service asked]
  exact .refl _

omit once in
theorem alike_noStyle :
    Alike Eq ((Check.noStyle params).eval roles) ((Check.noStyle params').eval roles) := by
  rw [Check.noStyle, Check.noStyle, arranged.hasStyle]
  exact .refl _

omit once in
/-- The lists of a printed map may come in another order, but the same lists are there. -/
theorem alike_mapLayers :
    Alike Eq
      (((params.filterNames Params.listsMapLayers).forM fun (_, list) =>
        Check.requireAll index (some list) .view).eval roles)
      (((params'.filterNames Params.listsMapLayers).forM fun (_, list) =>
        Check.requireAll index (some list) .view).eval roles) := by
  have denies : ∀ params : Params,
      ((params.filterNames Params.listsMapLayers).forM fun (_, list) =>
        Check.requireAll index (some list) .view).Denies roles :=
    fun params => Check.denies_forM fun _ => Check.denies_requireAll _ _ _
  refine Check.alike_of_denies (denies params) (denies params') ?_
  simp only [Check.Accepts, Check.eval_forM_iff, Check.eval_requireAll_iff, exists_const]
  constructor
  · intro h pair hp
    obtain ⟨pair', hp', e⟩ := arranged.symm.mem_filterNames hp
    exact e ▸ h pair' hp'
  · intro h pair hp
    obtain ⟨pair', hp', e⟩ := arranged.mem_filterNames hp
    exact e ▸ h pair' hp'

/-- A query is narrowed to the same lists in both. -/
theorem alike_getFeatureParams :
    Alike (fun outcome outcome' => outcome.1.Rearranges outcome'.1 ∧
        outcome'.1.get? "PROPERTYNAME" = outcome.1.get? "PROPERTYNAME" ∧ outcome'.2 = outcome.2)
      ((Check.getFeatureParams index params).eval roles)
      ((Check.getFeatureParams index params').eval roles) := by
  have properties := get?_propertyName_rearranged once arranged
  rw [Check.getFeatureParams, Check.getFeatureParams, typeNames_rearranged once arranged, properties]
  refine Check.alike_bind_self fun _ => Check.alike_bind_self fun groups =>
    Check.alike_bind_self fun selections => ?_
  split
  · exact .ok ⟨arranged.set _ _, Params.get?_set_self.trans Params.get?_set_self.symm, rfl⟩
  · exact .ok ⟨arranged, properties.symm, rfl⟩

end

theorem Request.Rearranges.classify (arranged : request.Rearranges request')
    (once : Unrepeated request.params) :
    Operation.classify request'.method request'.params =
      Operation.classify request.method request.params := by
  rw [arranged.method, arranged.params.classify (once.count_le_one (by decide))
    (once.count_le_one (by decide))]

/-! ## Requests -/

/-- A document is decided without regard to parameters. -/
theorem alike_document (arranged : request.Rearranges request')
    (properties : request'.params.get? "PROPERTYNAME" = request.params.get? "PROPERTYNAME") :
    Alike SameDecision ((Check.document index request).eval roles)
      ((Check.document index request').eval roles) := by
  rw [Check.document, Check.document, arranged.body]
  refine Check.alike_bind_self fun document => ?_
  split
  · refine Check.alike_bind_self fun result => ?_
    obtain ⟨root, narrowed⟩ := result
    cases narrowed with
    | false => exact .ok ⟨rfl, arranged, properties⟩
    | true =>
      refine .ok ⟨rfl, ⟨arranged.method, ?_, rfl, arranged.params⟩, properties⟩
      show request'.headers.setContentLength _ = request.headers.setContentLength _
      rw [arranged.headers]
  · split
    · exact Check.alike_bind_self fun _ => .ok ⟨rfl, arranged, properties⟩
    · exact .ok ⟨rfl, arranged, properties⟩

theorem alike_parameters (once : Unrepeated request.params) (arranged : request.Rearranges request')
    (operation : Operation) :
    Alike SameDecision ((Check.parameters index operation request).eval roles)
      ((Check.parameters index operation request').eval roles) := by
  have properties := (get?_propertyName_rearranged once arranged.params).symm
  have kept : Alike SameDecision (Except.ok (⟨operation, false⟩, request))
      (Except.ok (⟨operation, false⟩, request')) := .ok ⟨rfl, arranged, properties⟩
  have style : Alike Eq ((Check.noStyle request.params).eval roles)
      ((Check.noStyle request'.params).eval roles) := alike_noStyle arranged.params
  have layers : Alike Eq ((Check.requireParameter index request.params "LAYERS" .view).eval roles)
      ((Check.requireParameter index request'.params "LAYERS" .view).eval roles) :=
    alike_requireParameter once arranged.params (by decide) (by decide) (by decide) _
  cases operation with
  | getCapabilities | passThrough => exact kept
  | getMap =>
    refine Check.alike_bind style fun _ _ _ => ?_
    exact Check.alike_bind layers fun _ _ _ => kept
  | getPrint =>
    refine Check.alike_bind style fun _ _ _ => ?_
    refine Check.alike_bind layers fun _ _ _ => ?_
    exact Check.alike_bind (alike_mapLayers arranged.params) fun _ _ _ => kept
  | getFeatureInfo =>
    refine Check.alike_bind style fun _ _ _ => ?_
    refine Check.alike_bind (alike_requireParameter once arranged.params (by decide) (by decide)
      (by decide) _) fun _ _ _ => ?_
    exact Check.alike_bind layers fun _ _ _ => kept
  | getFeatureKvp =>
    refine Check.alike_bind (alike_getFeatureParams once arranged.params) fun outcome outcome' h => ?_
    obtain ⟨params, properties, narrowed⟩ := h
    exact .ok ⟨by rw [narrowed], ⟨arranged.method, arranged.headers, arranged.body, params⟩, properties⟩
  | transactionKvp => exact .error (.denied _ _)
  | wfsDocument | getFeature | transaction => exact alike_document arranged properties

theorem alike_request (once : Unrepeated request.params) (arranged : request.Rearranges request') :
    Alike SameDecision ((Check.request index request).eval roles)
      ((Check.request index request').eval roles) := by
  rw [Check.request, Check.request, arranged.classify once]
  refine Check.alike_bind (alike_parameters once arranged _) fun outcome outcome' h => ?_
  obtain ⟨found, forwarded⟩ := outcome
  obtain ⟨found', forwarded'⟩ := outcome'
  obtain ⟨rfl, arranged, properties⟩ : found' = found ∧ _ ∧ _ := ⟨h.1, h.2, h.3⟩
  dsimp only
  rw [arranged.body]
  split
  · exact .ok h
  · refine Check.alike_bind (alike_document arranged properties) fun outcome outcome' h => ?_
    obtain ⟨inside, forwarded⟩ := outcome
    obtain ⟨inside', forwarded'⟩ := outcome'
    obtain rfl : inside' = inside := h.inspection
    exact .ok ⟨rfl, h.request, h.properties⟩

theorem inspect_some (context : PermissionContext) (index : LayerIndex) (request : Request) :
    request.inspect index (some context) = match request.params.repeated? with
      | some group => .error (.denied (.repeatedParameter group))
      | none => (Check.request index request).eval context.roles := by
  rw [Request.inspect]
  cases request.params.repeated? with
  | some group => rfl
  | none => exact (Check.request index request).eval_run context

/-- Requests whose parameters are arranged differently are decided alike: both fail
with errors of one variant, or both go on as the same operation, narrowed in the same
way, with the same body and the same list of properties. -/
theorem inspect_rearranged {context? context'? : Option PermissionContext}
    (sameRoles : context'?.map (·.roles) = context?.map (·.roles))
    (arranged : request.Rearranges request') :
    Alike SameDecision (request.inspect index context?) (request'.inspect index context'?) := by
  have repeated := arranged.params.repeated?
  match context?, context'?, sameRoles with
  | none, none, _ =>
    rw [Request.inspect, Request.inspect, ← repeated]
    split
    · exact .error (.denied _ _)
    · rename_i once
      have once := repeated?_eq_none_iff.1 once
      rw [arranged.classify once]
      exact .ok ⟨rfl, arranged, (get?_propertyName_rearranged once arranged.params).symm⟩
  | some context, some context', sameRoles =>
    have roles : context'.roles = context.roles := Option.some.inj sameRoles
    rw [inspect_some, inspect_some, ← repeated, roles]
    split
    · exact .error (.denied _ _)
    · rename_i once
      exact alike_request (repeated?_eq_none_iff.1 once) arranged

/-- A query without a list of properties, in the given parameters. -/
def queryRequest (pairs : List (String × String)) : Request where
  method := .get
  params := ⟨pairs⟩
  headers := .empty
  body := .empty
  publicPath := "/city"

/-- A query in the usual spelling. -/
def plainQuery : Request :=
  queryRequest [("SERVICE", "WFS"), ("REQUEST", "GetFeature"), ("TYPENAME", "roads")]

/-- The same query from its end, in another spelling. -/
def rearrangedQuery : Request :=
  queryRequest [("typename", "roads"), ("Request", " GETFEATURE"), ("service", "wfs ")]

open FeatureQuery (oneAttribute) in
theorem inspect_rearrangedQuery :
    plainQuery.Rearranges rearrangedQuery ∧
    Alike SameDecision
      (plainQuery.inspect (.ofLayers (oneAttribute "name").layers)
        (some (.ofRoles (oneAttribute "name").roles)))
      (rearrangedQuery.inspect (.ofLayers (oneAttribute "name").layers)
        (some (.ofRoles (oneAttribute "name").roles))) ∧
    rearrangedQuery.inspect (.ofLayers (oneAttribute "name").layers)
        (some (.ofRoles (oneAttribute "name").roles)) =
      .ok (⟨.getFeatureKvp, true⟩, queryRequest [("typename", "roads"), ("Request", " GETFEATURE"),
        ("service", "wfs "), ("PROPERTYNAME", "geometry,name")]) := by
  have reversed : rearrangedQuery.params.pairs.map Params.canonicalPair =
      (plainQuery.params.pairs.map Params.canonicalPair).reverse := by decide +kernel
  have params : plainQuery.params.Rearranges rearrangedQuery.params := by
    rw [Params.Rearranges, reversed]
    exact (List.reverse_perm _).symm
  have arranged : plainQuery.Rearranges rearrangedQuery := ⟨rfl, rfl, rfl, params⟩
  exact ⟨arranged, inspect_rearranged rfl arranged, rfl⟩

end MapGate
