import MapGate.Gate.Inspection
import MapGate.Proofs.Gate.FeatureDocument
import MapGate.Proofs.Gate.FeatureParams
import MapGate.Proofs.Xml.Bytes

/-!
# Which requests go on

A request goes on when no decision parameter is repeated, its parameters are
accepted for the operation that they name (`ParametersAccepted`), and a body
that it has is accepted for the operation that its root names
(`DocumentAccepted`), whatever the parameters say.

* `eval_parameters_iff`, `eval_document_iff`: the outcomes of the two parts;
* `eval_request_iff`: the outcome for a request;
* `exists_inspect_eq_ok_iff`, `operation_of_inspect`: which requests go on, and as
  what.
-/

namespace MapGate

open Xml

variable {roles : List Role} {index : LayerIndex} {request : Request}

/-- No decision parameter occurs more than once, under whichever of its names. -/
def Unrepeated (params : Params) : Prop :=
  ∀ group ∈ decisionParameters, params.countGroup group ≤ 1

/-- All layers of a comma list are permitted. -/
def ListPermitted (roles : List Role) (index : LayerIndex) (list : String)
    (permission : Permission) : Prop :=
  ∀ layer ∈ Text.entries list, PermitsLayer roles (index.resolve layer) permission

/-- The parameters are accepted for an operation. What a document asks for does
not depend on them. -/
def ParametersAccepted (roles : List Role) (index : LayerIndex) (params : Params) :
    Operation → Prop
  | .getCapabilities | .passThrough | .wfsDocument | .getFeature | .transaction => True
  | .getMap =>
    params.hasStyle = false ∧ ListPermitted roles index ((params.get? "LAYERS").getD "") .view
  | .getPrint =>
    params.hasStyle = false ∧ ListPermitted roles index ((params.get? "LAYERS").getD "") .view ∧
      ∀ pair ∈ params.filterNames Params.listsMapLayers, ListPermitted roles index pair.2 .view
  | .getFeatureInfo =>
    params.hasStyle = false ∧
      ListPermitted roles index ((params.get? "QUERY_LAYERS").getD "") .query ∧
      ListPermitted roles index ((params.get? "LAYERS").getD "") .view
  | .getFeatureKvp => (Check.getFeatureParams index params).Accepts roles
  | .transactionKvp => False

/-- A document is accepted for the operation that its root names, if it names
one that is checked. -/
structure DocumentAccepted (roles : List Role) (index : LayerIndex) (root : Element) : Prop where
  getFeature : root.localName = "GetFeature" → (Check.getFeature index root).Accepts roles
  transaction : root.localName = "Transaction" → (Check.transaction index root).Accepts roles

/-- Only a document leaves the operation to the body. -/
theorem isDocument_classify_iff {method : Method} {params : Params} :
    (Operation.classify method params).isDocument = true ↔
      Operation.classify method params = .wfsDocument := by
  simp only [Operation.classify]
  repeat' split
  all_goals simp [Operation.isDocument]

/-! ## Parameters -/

/-- What becomes of accepted parameters: those of a feature query are narrowed,
and all others stay. -/
def ParametersForwarded (roles : List Role) (index : LayerIndex) (operation : Operation)
    (params params' : Params) (narrowed : Bool) : Prop :=
  if operation = .getFeatureKvp then
    (Check.getFeatureParams index params).eval roles = .ok (params', narrowed)
  else params' = params ∧ narrowed = false

namespace Check

theorem eval_noStyle_iff {params : Params} {u : Unit} :
    (noStyle params).eval roles = .ok u ↔ params.hasStyle = false := by
  rw [noStyle, eval_require_iff, Bool.not_eq_true']

theorem eval_requireParameter_iff {params : Params} {name : String} {permission : Permission}
    {u : Unit} : (requireParameter index params name permission).eval roles = .ok u ↔
      ListPermitted roles index ((params.get? name).getD "") permission :=
  eval_requireAll_iff

theorem exists_parametersForwarded {operation : Operation} {params : Params}
    (h : ParametersAccepted roles index params operation) :
    ∃ params' narrowed, ParametersForwarded roles index operation params params' narrowed := by
  by_cases e : operation = .getFeatureKvp
  · subst e
    obtain ⟨⟨params', narrowed⟩, he⟩ := h
    exact ⟨params', narrowed, by rwa [ParametersForwarded, if_pos rfl]⟩
  · exact ⟨params, false, by rw [ParametersForwarded, if_neg e]; exact ⟨rfl, rfl⟩⟩

/-- The outcome where parameters decide about the operation. -/
theorem eval_parameters_iff {operation : Operation} (h : operation.isDocument = false)
    {outcome : Inspection × Request} :
    (parameters index operation request).eval roles = .ok outcome ↔
      ParametersAccepted roles index request.params operation ∧
      ∃ params' narrowed, ParametersForwarded roles index operation request.params params' narrowed ∧
        outcome = (⟨operation, narrowed⟩, { request with params := params' }) := by
  have kept : operation ≠ .getFeatureKvp →
      ((∃ params' narrowed,
        ParametersForwarded roles index operation request.params params' narrowed ∧
          outcome = (⟨operation, narrowed⟩, { request with params := params' })) ↔
      (⟨operation, false⟩, request) = outcome) := fun hne => by
    simp [ParametersForwarded, hne, and_assoc, eq_comm]
  have listed : ∀ list : String, (requireAll index (some list) .view).eval roles = .ok () ↔
      ListPermitted roles index list .view := fun _ => eval_requireAll_iff
  cases operation with
  | wfsDocument | getFeature | transaction => cases h
  | getFeatureKvp =>
    simp only [parameters, eval_bind_iff, eval_pure, Except.ok.injEq, Prod.exists,
      ParametersAccepted, ParametersForwarded, if_true, Accepts]
    constructor
    · intro h
      obtain ⟨params', narrowed, he, rfl⟩ := h
      exact ⟨⟨params', narrowed, he⟩, params', narrowed, he, rfl⟩
    · intro h
      obtain ⟨-, params', narrowed, he, rfl⟩ := h
      exact ⟨params', narrowed, he, rfl⟩
  | transactionKvp => simp [parameters, ParametersAccepted]
  | _ =>
    rw [kept (by simp)]
    simp only [parameters, eval_bind_iff, eval_pure, Except.ok.injEq, eval_noStyle_iff, listed,
      eval_requireParameter_iff, eval_forM_iff, exists_const, ParametersAccepted, and_assoc,
      true_and]

theorem parameters_of_isDocument {operation : Operation} (h : operation.isDocument = true) :
    parameters index operation request = document index request := by
  cases operation <;> first | rfl | cases h

/-- Nothing is asked of the parameters where a document decides. -/
theorem parametersAccepted_of_isDocument (roles : List Role) (index : LayerIndex) (params : Params)
    {operation : Operation} (h : operation.isDocument = true) :
    ParametersAccepted roles index params operation ∧ operation ≠ .getFeatureKvp := by
  cases operation with
  | wfsDocument | getFeature | transaction => exact ⟨trivial, by simp⟩
  | _ => cases h

/-! ## Documents -/

/-- The operation that the root of a document names. -/
def rootOperation (root : Element) : Operation :=
  if root.localName = "GetFeature" then .getFeature
  else if root.localName = "Transaction" then .transaction
  else .passThrough

/-- Whether a document is narrowed: it is a feature query, and some query in it
asks for nothing. -/
def narrowsDocument (root : Element) : Bool :=
  root.localName = "GetFeature" &&
    root.elements.any fun query => (FeatureQuery.requested query).isEmpty

/-- The request as it is forwarded with an accepted document. -/
def forwardDocument (roles : List Role) (index : LayerIndex) (request : Request)
    (document : Document) : Request :=
  if narrowsDocument document.root then
    request.replaceBody
      { document with root := FeatureQuery.narrowRoot roles index document.root }.render.toUTF8
  else request

/-- The outcome for a document. -/
theorem eval_document_iff {outcome : Inspection × Request} :
    (document index request).eval roles = .ok outcome ↔
      ∃ document, Document.ofBytes request.body = .ok document ∧
        DocumentAccepted roles index document.root ∧
        outcome = (⟨rootOperation document.root, narrowsDocument document.root⟩,
          forwardDocument roles index request document) := by
  rw [Check.document, eval_bind_iff]
  refine exists_congr fun document => ?_
  rw [eval_ofExcept, mapError_eq_ok_iff]
  refine and_congr_right fun _ => ?_
  have accepted : DocumentAccepted roles index document.root ↔ _ ∧ _ :=
    ⟨fun h => ⟨h.getFeature, h.transaction⟩, fun h => ⟨h.1, h.2⟩⟩
  by_cases hf : document.root.localName = "GetFeature"
  · simp only [hf, if_true, eval_bind_iff, Prod.exists, FeatureQuery.eval_getFeature_iff, eval_pure,
      Except.ok.injEq, accepted, true_imp_iff, FeatureQuery.accepts_getFeature_iff, rootOperation,
      narrowsDocument, forwardDocument, decide_true, Bool.true_and, and_assoc]
    constructor
    · intro h
      obtain ⟨_, _, hne, hq, rfl, rfl, rfl⟩ := h
      exact ⟨hne, hq, by simp, rfl⟩
    · intro h
      obtain ⟨hne, hq, -, rfl⟩ := h
      exact ⟨_, _, hne, hq, rfl, rfl, rfl⟩
  · by_cases ht : document.root.localName = "Transaction"
    · rw [if_neg hf, if_pos ht, eval_bind_iff, accepted]
      simp [Accepts, ht, rootOperation, narrowsDocument, forwardDocument, eq_comm]
    · simp [accepted, hf, ht, rootOperation, narrowsDocument, forwardDocument, eq_comm]

/-! ## Requests -/

/-- Whether the body decides about a request: there is one, or nothing else says
what is asked for. -/
def readsBody (request : Request) : Bool :=
  (Operation.classify request.method request.params).isDocument || !request.body.isEmpty

/-- What a request asks for with a root in its body: what the root names, and
otherwise what the parameters name, unless they leave it to the body. -/
def reportedOperation (operation : Operation) (root : Element) : Operation :=
  if rootOperation root = .passThrough ∧ operation.isDocument = false then operation
  else rootOperation root

theorem reportedOperation_cases {operation : Operation}
    (h : operation.isDocument = true ↔ operation = .wfsDocument) (root : Element) :
    (root.localName = "GetFeature" → reportedOperation operation root = .getFeature) ∧
    (root.localName = "Transaction" → reportedOperation operation root = .transaction) ∧
    (root.localName ≠ "GetFeature" → root.localName ≠ "Transaction" →
      reportedOperation operation root =
        if operation = .wfsDocument then .passThrough else operation) := by
  refine ⟨fun h => ?_, fun h => ?_, fun hf ht => ?_⟩
  · simp [reportedOperation, rootOperation, h]
  · simp [reportedOperation, rootOperation, h]
  · simp only [reportedOperation, rootOperation, hf, ht, if_false, true_and]
    by_cases hd : operation = .wfsDocument
    · rw [if_pos hd, hd]; rfl
    · rw [if_neg hd, if_pos (Bool.eq_false_iff.2 (mt h.1 hd))]

section

variable {operation : Operation} {outcome : Inspection × Request}

/-- A request is checked in two steps: its parameters, and then a body that they do
not stand for already. -/
theorem eval_request_steps
    (ho : Operation.classify request.method request.params = operation) :
    (Check.request index request).eval roles = .ok outcome ↔
      ∃ found request', (parameters index operation request).eval roles = .ok (found, request') ∧
        if request'.body.isEmpty || operation.isDocument then (found, request') = outcome
        else ∃ inside request'', (document index request').eval roles = .ok (inside, request'') ∧
          (⟨if inside.operation = .passThrough then found.operation else inside.operation,
            found.narrowed || inside.narrowed⟩, request'') = outcome := by
  rw [Check.request, eval_bind_iff, ho, Prod.exists]
  refine exists_congr fun found => exists_congr fun request' => and_congr_right fun _ => ?_
  dsimp only
  split
  · rw [eval_pure, Except.ok.injEq]
  · simp only [eval_bind_iff, Prod.exists, eval_pure, Except.ok.injEq]

/-- The outcome where the body decides alone. -/
theorem eval_request_of_isDocument
    (ho : Operation.classify request.method request.params = operation)
    (hd : operation.isDocument = true) :
    (Check.request index request).eval roles = .ok outcome ↔
      ∃ document, Document.ofBytes request.body = .ok document ∧
        DocumentAccepted roles index document.root ∧
        outcome = (⟨rootOperation document.root, narrowsDocument document.root⟩,
          forwardDocument roles index request document) := by
  rw [eval_request_steps ho, parameters_of_isDocument hd, ← eval_document_iff]
  simp only [hd, Bool.or_true, if_true]
  constructor
  · intro h
    obtain ⟨found, request', h, rfl⟩ := h
    exact h
  · exact fun h => ⟨outcome.1, outcome.2, h, rfl⟩

/-- The outcome where there is no body. -/
theorem eval_request_of_isEmpty
    (ho : Operation.classify request.method request.params = operation)
    (hd : operation.isDocument = false) (he : request.body.isEmpty = true) :
    (Check.request index request).eval roles = .ok outcome ↔
      ParametersAccepted roles index request.params operation ∧
      ∃ params' narrowed, ParametersForwarded roles index operation request.params params' narrowed ∧
        outcome = (⟨operation, narrowed⟩, { request with params := params' }) := by
  rw [eval_request_steps ho, ← eval_parameters_iff hd]
  have kept : ∀ found request', (parameters index operation request).eval roles =
      .ok (found, request') → request'.body.isEmpty = true := fun found request' hp => by
    obtain ⟨-, params', narrowed, -, e⟩ := (eval_parameters_iff hd).1 hp
    rw [(Prod.mk.inj e).2]
    exact he
  constructor
  · intro h
    obtain ⟨found, request', hp, h⟩ := h
    rw [kept found request' hp, Bool.true_or, if_pos rfl] at h
    exact h ▸ hp
  · intro hp
    refine ⟨outcome.1, outcome.2, hp, ?_⟩
    rw [kept outcome.1 outcome.2 hp, Bool.true_or, if_pos rfl]

/-- The outcome where there is a body besides the parameters. -/
theorem eval_request_of_body
    (ho : Operation.classify request.method request.params = operation)
    (hd : operation.isDocument = false) (he : request.body.isEmpty = false) :
    (Check.request index request).eval roles = .ok outcome ↔
      ParametersAccepted roles index request.params operation ∧
      ∃ params' narrowed, ParametersForwarded roles index operation request.params params' narrowed ∧
        ∃ document, Document.ofBytes request.body = .ok document ∧
          DocumentAccepted roles index document.root ∧
          outcome = (⟨reportedOperation operation document.root,
              narrowed || narrowsDocument document.root⟩,
            forwardDocument roles index { request with params := params' } document) := by
  have reported : ∀ root, reportedOperation operation root =
      if rootOperation root = .passThrough then operation else rootOperation root := fun root => by
    simp only [reportedOperation, hd, and_true]
  have second : ¬ (request.body.isEmpty || operation.isDocument) = true := by simp [he, hd]
  rw [eval_request_steps ho]
  constructor
  · intro h
    obtain ⟨found, request', hp, h⟩ := h
    obtain ⟨ha, params', narrowed, hf, e⟩ := (eval_parameters_iff hd).1 hp
    obtain ⟨rfl, rfl⟩ := Prod.mk.inj e
    rw [if_neg second] at h
    obtain ⟨inside, request'', hi, rfl⟩ := h
    obtain ⟨document, hb, hr, e⟩ := eval_document_iff.1 hi
    obtain ⟨rfl, rfl⟩ := Prod.mk.inj e
    exact ⟨ha, params', narrowed, hf, document, hb, hr, by rw [reported]⟩
  · intro h
    obtain ⟨ha, params', narrowed, hf, document, hb, hr, rfl⟩ := h
    refine ⟨_, _, (eval_parameters_iff hd).2 ⟨ha, params', narrowed, hf, rfl⟩, ?_⟩
    rw [if_neg second]
    exact ⟨_, _, eval_document_iff.2 ⟨document, hb, hr, rfl⟩, by rw [reported]⟩

end

/-- The outcome for a request. -/
theorem eval_request_iff {outcome : Inspection × Request} :
    let operation := Operation.classify request.method request.params
    (Check.request index request).eval roles = .ok outcome ↔
      ParametersAccepted roles index request.params operation ∧
      ∃ params' narrowed, ParametersForwarded roles index operation request.params params' narrowed ∧
        if readsBody request then
          ∃ document, Document.ofBytes request.body = .ok document ∧
            DocumentAccepted roles index document.root ∧
            outcome = (⟨reportedOperation operation document.root,
                narrowed || narrowsDocument document.root⟩,
              forwardDocument roles index { request with params := params' } document)
        else outcome = (⟨operation, narrowed⟩, { request with params := params' }) := by
  intro operation
  have body : readsBody request = (operation.isDocument || !request.body.isEmpty) := rfl
  cases hd : operation.isDocument with
  | true =>
    obtain ⟨accepted, hne⟩ := parametersAccepted_of_isDocument roles index request.params hd
    have reported : ∀ root, reportedOperation operation root = rootOperation root := fun root =>
      if_neg fun h => by rw [hd] at h; cases h.2
    rw [eval_request_of_isDocument rfl hd, body, hd, Bool.true_or]
    simp only [accepted, ParametersForwarded, hne, if_false, if_true, true_and, reported]
    constructor
    · intro h
      obtain ⟨document, hb, ha, rfl⟩ := h
      exact ⟨request.params, false, ⟨rfl, rfl⟩, document, hb, ha, by rw [Bool.false_or]⟩
    · intro h
      obtain ⟨_, _, ⟨rfl, rfl⟩, document, hb, ha, rfl⟩ := h
      exact ⟨document, hb, ha, by rw [Bool.false_or]⟩
  | false =>
    rw [body, hd, Bool.false_or]
    cases he : request.body.isEmpty with
    | true => exact eval_request_of_isEmpty rfl hd he
    | false => exact eval_request_of_body rfl hd he

end Check

theorem repeated?_eq_none_iff {params : Params} : params.repeated? = none ↔ Unrepeated params := by
  rw [Params.repeated?, List.find?_eq_none]
  exact forall₂_congr fun _ _ => by rw [decide_eq_true_eq, Nat.not_lt]

/-- The outcome under a context is that of its roles. -/
theorem inspect_eq_ok_iff {context : PermissionContext} {outcome : Inspection × Request} :
    request.inspect index (some context) = .ok outcome ↔
      Unrepeated request.params ∧
        (Check.request index request).eval context.roles = .ok outcome := by
  rw [← repeated?_eq_none_iff, Request.inspect, ← Check.eval_run]
  cases request.params.repeated? <;> simp

/-- Without roles a request goes on as it is, if no decision parameter is repeated. -/
theorem inspect_none_eq_ok_iff {outcome : Inspection × Request} :
    request.inspect index none = .ok outcome ↔
      Unrepeated request.params ∧
        (⟨Operation.classify request.method request.params, false⟩, request) = outcome := by
  rw [← repeated?_eq_none_iff, Request.inspect]
  cases request.params.repeated? <;> simp

theorem readsBody_iff : Check.readsBody request = true ↔
    Operation.classify request.method request.params = .wfsDocument ∨
      request.body.isEmpty = false := by
  rw [Check.readsBody, Bool.or_eq_true, isDocument_classify_iff, Bool.not_eq_true']

theorem isEmpty_of_ofBytes {document : Document}
    (h : Document.ofBytes request.body = .ok document) : request.body.isEmpty = false := by
  refine Bool.eq_false_iff.2 fun he => ?_
  rw [Document.ofBytes_of_isEmpty he] at h
  cases h

section

variable {context : PermissionContext}

/-- Which requests go on. -/
theorem exists_inspect_eq_ok_iff :
    (∃ outcome, request.inspect index (some context) = .ok outcome) ↔
      Unrepeated request.params ∧
      ParametersAccepted context.roles index request.params
        (Operation.classify request.method request.params) ∧
      (Check.readsBody request = true →
        ∃ document, Document.ofBytes request.body = .ok document ∧
          DocumentAccepted context.roles index document.root) := by
  constructor
  · intro h
    obtain ⟨outcome, h⟩ := h
    obtain ⟨hu, he⟩ := inspect_eq_ok_iff.1 h
    obtain ⟨hp, _, _, -, hb⟩ := Check.eval_request_iff.1 he
    refine ⟨hu, hp, fun hr => ?_⟩
    rw [if_pos hr] at hb
    obtain ⟨document, hd, ha, -⟩ := hb
    exact ⟨document, hd, ha⟩
  · intro h
    obtain ⟨hu, hp, hb⟩ := h
    obtain ⟨params', narrowed, hf⟩ := Check.exists_parametersForwarded hp
    simp only [inspect_eq_ok_iff, Check.eval_request_iff]
    by_cases hr : Check.readsBody request = true
    · obtain ⟨document, hd, ha⟩ := hb hr
      simp only [if_pos hr]
      exact ⟨_, hu, hp, params', narrowed, hf, document, hd, ha, rfl⟩
    · simp only [if_neg hr]
      exact ⟨_, hu, hp, params', narrowed, hf, rfl⟩

/-- What a request goes on as: what the document in its body asks for, or else what
its parameters name. -/
theorem operation_of_inspect {inspection : Inspection} {request' : Request}
    (h : request.inspect index (some context) = .ok (inspection, request')) :
    (request.body.isEmpty = true →
      inspection.operation = Operation.classify request.method request.params) ∧
    ∀ document, Document.ofBytes request.body = .ok document → inspection.operation =
      Check.reportedOperation (Operation.classify request.method request.params) document.root := by
  obtain ⟨-, he⟩ := inspect_eq_ok_iff.1 h
  obtain ⟨-, _, _, -, hb⟩ := Check.eval_request_iff.1 he
  by_cases hr : Check.readsBody request = true
  · rw [if_pos hr] at hb
    obtain ⟨document, hd, -, e⟩ := hb
    obtain ⟨rfl, -⟩ := Prod.mk.inj e
    refine ⟨fun hempty => ?_, fun document' hd' => ?_⟩
    · rw [isEmpty_of_ofBytes hd] at hempty
      cases hempty
    · obtain rfl : document = document' := Except.ok.inj (hd.symm.trans hd')
      dsimp only
  · rw [if_neg hr] at hb
    obtain ⟨rfl, -⟩ := Prod.mk.inj hb
    exact ⟨fun _ => rfl, fun document hd =>
      absurd (readsBody_iff.2 (.inr (isEmpty_of_ofBytes hd))) hr⟩

end

/-- A request goes on exactly if no decision parameter is repeated, its
parameters are accepted, and so is the document in its body, which has to be
there if the parameters leave the operation to it. It goes on as what the
document asks for, where that is a query or a transaction. -/
theorem inspect_mediated (context : PermissionContext) (index : LayerIndex) (request : Request) :
    ((∃ outcome, request.inspect index (some context) = .ok outcome) ↔
      Unrepeated request.params ∧
      ParametersAccepted context.roles index request.params
        (Operation.classify request.method request.params) ∧
      (Operation.classify request.method request.params = .wfsDocument ∨
          request.body.isEmpty = false →
        ∃ document, Document.ofBytes request.body = .ok document ∧
          DocumentAccepted context.roles index document.root)) ∧
    (∀ inspection request', request.inspect index (some context) = .ok (inspection, request') →
      (request.body.isEmpty = true →
        inspection.operation = Operation.classify request.method request.params) ∧
      ∀ document, Document.ofBytes request.body = .ok document →
        (document.root.localName = "GetFeature" → inspection.operation = .getFeature) ∧
        (document.root.localName = "Transaction" → inspection.operation = .transaction) ∧
        (document.root.localName ≠ "GetFeature" → document.root.localName ≠ "Transaction" →
          inspection.operation =
            if Operation.classify request.method request.params = .wfsDocument then .passThrough
            else Operation.classify request.method request.params)) ∧
    (Operation.classify request.method request.params = .wfsDocument →
      request.body.isEmpty = true →
      ∀ outcome, request.inspect index (some context) ≠ .ok outcome) := by
  refine ⟨?_, fun inspection request' h => ?_, fun hc hempty outcome h => ?_⟩
  · rw [exists_inspect_eq_ok_iff, readsBody_iff]
  · obtain ⟨empty, body⟩ := operation_of_inspect h
    refine ⟨empty, fun document hd => ?_⟩
    rw [body document hd]
    exact Check.reportedOperation_cases isDocument_classify_iff document.root
  · obtain ⟨-, -, hb⟩ := exists_inspect_eq_ok_iff.1 ⟨outcome, h⟩
    obtain ⟨document, hd, -⟩ := hb (readsBody_iff.2 (.inl hc))
    rw [isEmpty_of_ofBytes hd] at hempty
    cases hempty

end MapGate
