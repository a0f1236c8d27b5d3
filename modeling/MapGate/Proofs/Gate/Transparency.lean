import MapGate.Proofs.Gate.Reinspection
import MapGate.Proofs.Http.Headers

/-!
# What inspection leaves as it is

A request that is not narrowed goes on as it is (`eq_of_inspect`). One that is
narrowed differs from what the client sent in its list of properties and in its body
only, with the length of the body to match (`narrows_of_inspect`). Each is narrowed
for its own reason: the list of a query in parameters
(`parametersForwarded_transparent`), the body of a feature query
(`forwardDocument_transparent`).
-/

namespace MapGate

open Xml

variable {roles : List Role} {index : LayerIndex} {request request' : Request}
  {params params' : Params} {operation : Operation} {narrowed : Bool}

/-- A request differs from another one only in what narrowing may change. -/
structure Narrows (request request' : Request) : Prop where
  method : request'.method = request.method
  publicPath : request'.publicPath = request.publicPath
  /-- Headers other than the length stay, with their values and in their order. -/
  headers : request'.headers.remove .contentLength = request.headers.remove .contentLength
  /-- So do parameters other than the list of properties. -/
  params : request'.params.remove "PROPERTYNAME" = request.params.remove "PROPERTYNAME"
  queryInParams : request'.params ≠ request.params →
    Operation.classify request.method request.params = .getFeatureKvp
  queryInBody : request'.body ≠ request.body →
    ∃ document, Document.ofBytes request.body = .ok document ∧
      document.root.localName = "GetFeature"
  /-- The body is the same and announced as before, or its length is announced once. -/
  length : request'.body = request.body ∧ request'.headers = request.headers ∨
    request'.headers.values .contentLength = [(toString request'.body.size).toUTF8]

theorem Narrows.refl (request : Request) : Narrows request request where
  method := rfl
  publicPath := rfl
  headers := rfl
  params := rfl
  queryInParams changed := absurd rfl changed
  queryInBody changed := absurd rfl changed
  length := .inl ⟨rfl, rfl⟩

/-! ## Parameters -/

/-- Accepted parameters that are not narrowed stay as they are, and those that are
keep all but the list of properties. -/
theorem parametersForwarded_transparent
    (h : ParametersForwarded roles index operation params params' narrowed) :
    (narrowed = false → params' = params) ∧
    params'.remove "PROPERTYNAME" = params.remove "PROPERTYNAME" ∧
    (params' ≠ params → operation = .getFeatureKvp) := by
  rw [ParametersForwarded] at h
  split at h
  · rename_i query
    obtain ⟨-, entries, -, -, rfl, rfl⟩ := FeatureQuery.eval_getFeatureParams_iff.1 h
    rw [FeatureQuery.forwardedParams]
    split
    · rename_i unlisted
      exact ⟨fun kept => absurd (unlisted.symm.trans kept) (by decide), Params.remove_set_self,
        fun _ => query⟩
    · exact ⟨fun _ => rfl, rfl, fun _ => query⟩
  · obtain ⟨rfl, -⟩ := h
    exact ⟨fun _ => rfl, rfl, fun changed => absurd rfl changed⟩

theorem narrows_params
    (h : ParametersForwarded roles index (Operation.classify request.method request.params)
      request.params params' narrowed) : Narrows request { request with params := params' } := by
  obtain ⟨-, others, query⟩ := parametersForwarded_transparent h
  exact { Narrows.refl request with params := others, queryInParams := query }

/-! ## Bodies -/

theorem Narrows.replaceBody {document : Document} (narrows : Narrows request request')
    (parsed : Document.ofBytes request.body = .ok document)
    (root : document.root.localName = "GetFeature") (body : ByteArray) :
    Narrows request (request'.replaceBody body) :=
  { narrows with
    headers := Headers.remove_set_self.trans narrows.headers
    queryInBody := fun _ => ⟨document, parsed, root⟩
    length := .inr Headers.values_set_self }

/-- A document that is narrowed becomes the body, and any other leaves the request as
it is. -/
theorem forwardDocument_transparent (roles : List Role) (index : LayerIndex)
    {document : Document} (narrows : Narrows request request')
    (parsed : Document.ofBytes request.body = .ok document) :
    (Check.narrowsDocument document.root = false →
      Check.forwardDocument roles index request' document = request') ∧
    Narrows request (Check.forwardDocument roles index request' document) := by
  rw [Check.forwardDocument]
  split
  · rename_i narrowed
    refine ⟨fun kept => absurd (narrowed.symm.trans kept) (by decide), ?_⟩
    rw [Check.narrowsDocument, Bool.and_eq_true, decide_eq_true_eq] at narrowed
    exact narrows.replaceBody parsed narrowed.1 _
  · exact ⟨fun _ => rfl, narrows⟩

/-! ## Requests -/

variable {context? : Option PermissionContext} {inspection : Inspection}

/-- What becomes of a request, by what becomes of its parameters and its body. -/
theorem narrows_and_kept_of_eval
    (h : (Check.request index request).eval roles = .ok (inspection, request')) :
    (inspection.narrowed = false → request' = request) ∧ Narrows request request' := by
  obtain ⟨-, params', narrowed, forwarded, body⟩ := Check.eval_request_iff.1 h
  obtain ⟨kept, -⟩ := parametersForwarded_transparent forwarded
  have narrows := narrows_params forwarded
  have same : narrowed = false → { request with params := params' } = request := fun h => by
    rw [kept h]
  split at body
  · obtain ⟨document, parsed, -, e⟩ := body
    obtain ⟨rfl, rfl⟩ := Prod.mk.inj e
    obtain ⟨keptBody, narrows⟩ := forwardDocument_transparent roles index narrows parsed
    refine ⟨fun h => ?_, narrows⟩
    obtain ⟨params, document⟩ := Bool.or_eq_false_iff.1 h
    rw [keptBody document, same params]
  · obtain ⟨rfl, rfl⟩ := Prod.mk.inj body
    exact ⟨same, narrows⟩

/-- A request that goes on without being narrowed goes on as it is. -/
theorem eq_of_inspect (h : request.inspect index context? = .ok (inspection, request'))
    (kept : inspection.narrowed = false) : request' = request := by
  cases context? with
  | none =>
    obtain ⟨-, e⟩ := inspect_none_eq_ok_iff.1 h
    exact (Prod.mk.inj e).2.symm
  | some context =>
    obtain ⟨-, eval⟩ := inspect_eq_ok_iff.1 h
    exact (narrows_and_kept_of_eval eval).1 kept

/-- A request that goes on differs only in what narrowing may change. -/
theorem narrows_of_inspect (h : request.inspect index context? = .ok (inspection, request')) :
    Narrows request request' := by
  cases context? with
  | none =>
    obtain ⟨-, e⟩ := inspect_none_eq_ok_iff.1 h
    exact (Prod.mk.inj e).2 ▸ Narrows.refl request
  | some context =>
    obtain ⟨-, eval⟩ := inspect_eq_ok_iff.1 h
    exact (narrows_and_kept_of_eval eval).2

/-- A request that goes on without being narrowed goes on as it is. In any case it
keeps its method, its path, its headers but for the length, and its parameters but
for the list of properties, which changes for a query in parameters only. Its body
changes only if a feature query is in it, and is then announced with its length. -/
theorem inspect_transparent (h : request.inspect index context? = .ok (inspection, request')) :
    (inspection.narrowed = false → request' = request) ∧ Narrows request request' :=
  ⟨eq_of_inspect h, narrows_of_inspect h⟩

open FeatureQuery (oneAttribute) in
/-- A query without a list gets one, and the new length is announced. -/
theorem narrows_postedQuery : ∃ request',
    Check.postedQuery.inspect (.ofLayers (oneAttribute "name").layers)
        (some (.ofRoles (oneAttribute "name").roles)) = .ok (⟨.getFeature, true⟩, request') ∧
    Narrows Check.postedQuery request' ∧
    request'.headers.values .contentLength = [(toString request'.body.size).toUTF8] := by
  have queried : (Check.getFeature (.ofLayers (oneAttribute "name").layers)
      Check.oneQuery.root).Accepts (oneAttribute "name").roles := ⟨_, rfl⟩
  have accepted := Check.inspect_postedQuery queried
  have narrows := (inspect_transparent accepted).2
  refine ⟨_, accepted, narrows, narrows.length.resolve_left fun same => ?_⟩
  have announced : (Check.forwardDocument (oneAttribute "name").roles
      (.ofLayers (oneAttribute "name").layers) Check.postedQuery
        Check.oneQuery).headers.entries.length = 1 := rfl
  rw [same.2] at announced
  exact absurd announced (by decide)

end MapGate
