import MapGate.Gateway.Handling
import MapGate.Proofs.Gate.LayerReferences
import MapGate.Proofs.Gate.RenderedLayers
import MapGate.Proofs.Ows.Operation
import MapGate.Proofs.Xml.PlainNames

/-!
# What requests go on as

A request names what it asks for in its parameters, and once more in the root of a
document that it carries. What it goes on as is made of both:

* `checked_unless_otherRoot`: where the parameters ask for a query or a transaction,
  the request goes on as one that was checked, unless it is posted with a document
  that is neither;
* `capabilities_iff`: a request goes on as one for capabilities, whose answer is
  rewritten, exactly if its parameters ask for them and nothing in its body is
  checked.
-/

namespace MapGate

open Xml
open FeatureQuery (oneAttribute)

variable {roles : List Role} {index : LayerIndex} {request request' : Request}
  {context : PermissionContext} {context? : Option PermissionContext} {inspection : Inspection}

/-! ## Roots of documents -/

theorem rootOperation_eq_passThrough_iff {root : Element} :
    Check.rootOperation root = .passThrough ↔ ¬ Checked root := by
  by_cases hf : root.localName = "GetFeature"
  · simp [Check.rootOperation, Checked, hf]
  · by_cases ht : root.localName = "Transaction" <;> simp [Check.rootOperation, Checked, hf, ht]

theorem Unrepeated.service_once (h : Unrepeated request.params) :
    request.params.count "SERVICE" ≤ 1 :=
  h.count_le_one (by decide)

theorem Unrepeated.request_once (h : Unrepeated request.params) :
    request.params.count "REQUEST" ≤ 1 :=
  h.count_le_one (by decide)

/-- The document of one element that holds nothing. -/
def bareDocument (name : String) : Document := ⟨none, name, [], []⟩

theorem ofBytes_bareDocument {name : String} (plain : PlainName name) :
    Document.ofBytes (bareDocument name).render.toUTF8 = .ok (bareDocument name) := by
  have tags : (bareDocument name).root.toNode.TagsRead :=
    .of_plain (Node.every_element.2 ⟨⟨plain, List.forall_mem_nil _⟩, List.forall_mem_nil _⟩)
  have content : (bareDocument name).root.toNode.ContentReads :=
    Node.every_element.2 ⟨⟨List.forall_mem_nil _, List.nodup_nil⟩, List.forall_mem_nil _⟩
  rw [Document.ofBytes_toUTF8]
  exact Document.ofChars_render (fun _ e => nomatch e) tags content

/-! ## Queries and transactions -/

/-- The check behind an operation was made of a request, and succeeded. -/
inductive Vouched (roles : List Role) (index : LayerIndex) (request : Request) : Operation → Prop
  | params (accepted : (Check.getFeatureParams index request.params).Accepts roles) :
    Vouched roles index request .getFeatureKvp
  | query {document : Document} (parsed : Document.ofBytes request.body = .ok document)
      (root : document.root.localName = "GetFeature")
      (accepted : (Check.getFeature index document.root).Accepts roles) :
    Vouched roles index request .getFeature
  | transaction {document : Document} (parsed : Document.ofBytes request.body = .ok document)
      (root : document.root.localName = "Transaction")
      (accepted : (Check.transaction index document.root).Accepts roles) :
    Vouched roles index request .transaction

theorem Vouched.of_document {document : Document}
    (parsed : Document.ofBytes request.body = .ok document) (checked : Checked document.root)
    (accepted : DocumentAccepted roles index document.root) :
    Vouched roles index request (Check.rootOperation document.root) := by
  rcases checked with root | root
  · have operation : Check.rootOperation document.root = .getFeature := by
      simp [Check.rootOperation, root]
    rw [operation]
    exact .query parsed root (accepted.getFeature root)
  · have operation : Check.rootOperation document.root = .transaction := by
      simp [Check.rootOperation, root]
    rw [operation]
    exact .transaction parsed root (accepted.transaction root)

/-- A posted document decides alone. -/
theorem inspect_posted (operation : Operation.classify request.method request.params = .wfsDocument)
    (h : request.inspect index (some context) = .ok (inspection, request')) :
    ∃ document, Document.ofBytes request.body = .ok document ∧
      DocumentAccepted context.roles index document.root ∧
      inspection.operation = Check.rootOperation document.root := by
  obtain ⟨-, -, body⟩ := exists_inspect_eq_ok_iff.1 ⟨_, h⟩
  obtain ⟨document, parsed, accepted⟩ := body (readsBody_iff.2 (.inl operation))
  refine ⟨document, parsed, accepted, ?_⟩
  rw [(operation_of_inspect h).2 document parsed, operation, Check.reportedOperation]
  exact if_neg fun h => absurd h.2 (by decide)

/-- A query in parameters is checked, and so is a document that comes with it. -/
theorem vouched_of_getFeatureKvp
    (operation : Operation.classify request.method request.params = .getFeatureKvp)
    (h : request.inspect index (some context) = .ok (inspection, request')) :
    inspection.operation ≠ .passThrough ∧
      Vouched context.roles index request inspection.operation := by
  obtain ⟨-, parameters, body⟩ := exists_inspect_eq_ok_iff.1 ⟨_, h⟩
  obtain ⟨reportedEmpty, reported⟩ := operation_of_inspect h
  have params : Vouched context.roles index request .getFeatureKvp :=
    .params (by rwa [operation] at parameters)
  cases empty : request.body.isEmpty with
  | true =>
    rw [reportedEmpty empty, operation]
    exact ⟨by decide, params⟩
  | false =>
    obtain ⟨document, parsed, accepted⟩ := body (readsBody_iff.2 (.inr empty))
    rw [reported document parsed, operation, Check.reportedOperation]
    by_cases checked : Checked document.root
    · have named := mt rootOperation_eq_passThrough_iff.1 (not_not.2 checked)
      rw [if_neg fun h => named h.1]
      exact ⟨named, .of_document parsed checked accepted⟩
    · rw [if_pos ⟨rootOperation_eq_passThrough_iff.2 checked, rfl⟩]
      exact ⟨by decide, params⟩

/-- Where the feature service is asked for a query or a transaction, a request that
goes on was checked as one, in its parameters or its document, unless it is posted
with a document that is neither. -/
theorem checked_unless_otherRoot (service : request.params.Says "SERVICE" "WFS")
    (asked : request.params.Says "REQUEST" "GetFeature" ∨
      request.params.Says "REQUEST" "Transaction")
    (h : request.inspect index (some context) = .ok (inspection, request')) :
    (inspection.operation = .passThrough ↔ request.method = .post ∧
      ∃ document, Document.ofBytes request.body = .ok document ∧ ¬ Checked document.root) ∧
    (inspection.operation ≠ .passThrough →
      Vouched context.roles index request inspection.operation) := by
  obtain ⟨once, parameters, -⟩ := exists_inspect_eq_ok_iff.1 ⟨_, h⟩
  have operation : Operation.classify request.method request.params = _ :=
    classify_of_wfs once.service_once once.request_once service asked
  by_cases posted : request.method = .post
  · rw [if_pos posted] at operation
    obtain ⟨document, parsed, accepted, root⟩ := inspect_posted operation h
    rw [root, Ne, rootOperation_eq_passThrough_iff, not_not]
    refine ⟨⟨fun other => ⟨posted, document, parsed, other⟩, fun h => ?_⟩, fun checked => ?_⟩
    · obtain ⟨-, document', parsed', other⟩ := h
      obtain rfl : document = document' := Except.ok.inj (parsed.symm.trans parsed')
      exact other
    · exact .of_document parsed checked accepted
  · have query : request.params.Says "REQUEST" "GetFeature" := by
      by_contra transaction
      rw [operation, if_neg posted, if_neg transaction] at parameters
      exact parameters
    rw [if_neg posted, if_pos query] at operation
    obtain ⟨named, vouched⟩ := vouched_of_getFeatureKvp operation h
    exact ⟨iff_of_false named fun h => posted h.1, fun _ => vouched⟩

/-- Parameters that ask for the features of one layer. -/
def asksFeatures (typeName : String) : Params :=
  ⟨[("service", " wfs"), ("Request", "getfeature "), ("TYPENAME", typeName)]⟩

/-- A query for the features of one layer, in parameters. -/
def queryInParams (typeName : String) : Request where
  method := .get
  params := asksFeatures typeName
  headers := .empty
  body := .empty
  publicPath := "/ows/a/b"

theorem checked_queryInParams :
    (queryInParams "roads").params.Says "SERVICE" "WFS" ∧
    (queryInParams "roads").params.Says "REQUEST" "GetFeature" ∧
    ∃ inspection request', (queryInParams "roads").inspect (.ofLayers (oneAttribute "name").layers)
        (some (.ofRoles (oneAttribute "name").roles)) = .ok (inspection, request') ∧
      inspection.operation ≠ .passThrough ∧
      Vouched (oneAttribute "name").roles (.ofLayers (oneAttribute "name").layers)
        (queryInParams "roads") inspection.operation := by
  have service : (queryInParams "roads").params.Says "SERVICE" "WFS" := by decide
  have asked : (queryInParams "roads").params.Says "REQUEST" "GetFeature" := by decide
  have accepted : ∃ outcome, (queryInParams "roads").inspect
      (.ofLayers (oneAttribute "name").layers) (some (.ofRoles (oneAttribute "name").roles)) =
        .ok outcome := ⟨_, rfl⟩
  obtain ⟨⟨inspection, request'⟩, h⟩ := accepted
  obtain ⟨passes, vouched⟩ := checked_unless_otherRoot service (.inl asked) h
  have named : inspection.operation ≠ .passThrough := fun e =>
    absurd (passes.1 e).1 (by decide)
  exact ⟨service, asked, inspection, request', h, named, vouched named⟩

/-! ## Documents of no kind that is checked -/

/-- A request that is posted with a document of one element. -/
def postedBare (params : Params) (name : String) : Request where
  method := .post
  params
  headers := .empty
  body := (bareDocument name).render.toUTF8
  publicPath := "/ows/a/b"

/-- A posted document that is no query and no transaction passes. -/
theorem inspect_postedBare {params : Params} {name : String} (plain : PlainName name)
    (other : ¬ Checked (bareDocument name).root) (once : Unrepeated params)
    (operation : Operation.classify .post params = .wfsDocument) :
    (postedBare params name).inspect index (some context) =
      .ok (⟨.passThrough, false⟩, postedBare params name) := by
  have accepted : DocumentAccepted context.roles index (bareDocument name).root :=
    ⟨fun h => absurd (.inl h) other, fun h => absurd (.inr h) other⟩
  have kept : Check.narrowsDocument (bareDocument name).root = false := by
    rw [Check.narrowsDocument, decide_eq_false fun h => other (.inl h), Bool.false_and]
  refine inspect_eq_ok_iff.2 ⟨once, ?_⟩
  rw [Check.eval_request_of_isDocument operation rfl]
  refine ⟨bareDocument name, ofBytes_bareDocument plain, accepted, ?_⟩
  rw [rootOperation_eq_passThrough_iff.2 other, Check.forwardDocument, kept]
  rfl

/-- A query that is posted with a document of another kind goes on, although its
parameters ask for a layer that nobody may query. -/
theorem query_unchecked :
    let settings := Transaction.twoLayers "buildings"
    let request := postedBare (asksFeatures "buildings") "DescribeFeatureType"
    settings.validate = .ok settings ∧
      request.params.Says "SERVICE" "WFS" ∧ request.params.Says "REQUEST" "GetFeature" ∧
      request.inspect (.ofLayers settings.layers) (some (.ofUser .anonymous settings.roles)) =
        .ok (⟨.passThrough, false⟩, request) ∧
      ¬ (Check.getFeatureParams (.ofLayers settings.layers) request.params).Accepts
        (applicableRoles .anonymous settings.roles) := by
  have once : Unrepeated (asksFeatures "buildings") := by
    rw [← repeated?_eq_none_iff]
    decide
  have other : ¬ Checked (bareDocument "DescribeFeatureType").root :=
    rootOperation_eq_passThrough_iff.1 (by decide)
  have denied : (Check.getFeatureParams (.ofLayers (Transaction.twoLayers "buildings").layers)
      (asksFeatures "buildings")).eval
        (applicableRoles .anonymous (Transaction.twoLayers "buildings").roles) =
          .error (.denied (.layerLacks "buildings" "query")) := rfl
  refine ⟨rfl, by decide, by decide, inspect_postedBare (by decide) other once (by decide), ?_⟩
  intro h
  obtain ⟨outcome, h⟩ := h
  exact absurd (denied.symm.trans h) (by simp)

/-! ## Capabilities -/

theorem reportedOperation_eq_getCapabilities_iff {operation : Operation} {root : Element} :
    Check.reportedOperation operation root = .getCapabilities ↔
      operation = .getCapabilities ∧ ¬ Checked root := by
  by_cases checked : Checked root
  · have named : Check.reportedOperation operation root = Check.rootOperation root :=
      if_neg fun h => rootOperation_eq_passThrough_iff.1 h.1 checked
    rw [named]
    refine iff_of_false ?_ fun h => h.2 checked
    rcases checked with root | root <;> simp [Check.rootOperation, root]
  · have passes := rootOperation_eq_passThrough_iff.2 checked
    cases operation <;> simp [Check.reportedOperation, Operation.isDocument, passes, checked]

/-- A request goes on as one for capabilities if its parameters ask for them, and no
document that is checked says otherwise. -/
theorem operation_eq_getCapabilities_iff
    (h : request.inspect index context? = .ok (inspection, request')) :
    inspection.operation = .getCapabilities ↔ request.params.AsksCapabilities ∧
      ¬ (context?.isSome ∧
        ∃ document, Document.ofBytes request.body = .ok document ∧ Checked document.root) := by
  cases context? with
  | none =>
    obtain ⟨once, e⟩ := inspect_none_eq_ok_iff.1 h
    obtain ⟨rfl, -⟩ := Prod.mk.inj e
    rw [classify_eq_getCapabilities_iff once.service_once once.request_once]
    simp
  | some context =>
    obtain ⟨once, -, body⟩ := exists_inspect_eq_ok_iff.1 ⟨_, h⟩
    obtain ⟨reportedEmpty, reported⟩ := operation_of_inspect h
    have asked : Operation.classify request.method request.params = .getCapabilities ↔ _ :=
      classify_eq_getCapabilities_iff once.service_once once.request_once
    rw [← asked]
    cases empty : request.body.isEmpty with
    | true =>
      have none : ¬ ∃ document, Document.ofBytes request.body = .ok document ∧
          Checked document.root := fun h => by
        obtain ⟨document, parsed, -⟩ := h
        exact absurd (isEmpty_of_ofBytes parsed) (by simp [empty])
      rw [reportedEmpty empty]
      simp [none]
    | false =>
      obtain ⟨document, parsed, -⟩ := body (readsBody_iff.2 (.inr empty))
      rw [reported document parsed, reportedOperation_eq_getCapabilities_iff, parsed]
      simp

/-- The answer to a request is rewritten if it goes on as one for capabilities. It
does if the parameters ask for them and there is no body. With a document for the
feature service that asks for capabilities, it does exactly if the parameters ask
for them as well. -/
theorem capabilities_iff (h : request.inspect index context? = .ok (inspection, request')) :
    (request.params.AsksCapabilities → request.body.isEmpty = true →
      inspection.operation = .getCapabilities) ∧
    (request.params.Says "SERVICE" "WFS" →
      ∀ document, Document.ofBytes request.body = .ok document →
        document.root.localName = "GetCapabilities" →
        (inspection.operation = .getCapabilities ↔
          request.params.Says "REQUEST" "GetCapabilities")) ∧
    ∀ (gateway : Gateway) (passage : Passage) (reply : Reply) (text : String),
      passage.inspection = inspection → reply.isSuccess = true →
      String.fromUTF8? reply.body = some text →
      gateway.rewritten? passage reply =
        if inspection.operation = .getCapabilities then
          Capabilities.rewrite? gateway.publicBase? passage.request.publicPath text
        else none := by
  have marked := operation_eq_getCapabilities_iff h
  refine ⟨fun asked empty => marked.2 ⟨asked, fun h => ?_⟩, fun wfs document parsed root => ?_, ?_⟩
  · obtain ⟨-, document, parsed, -⟩ := h
    exact absurd (isEmpty_of_ofBytes parsed) (by simp [empty])
  · have unchecked : ¬ Checked document.root := by
      rw [Checked, root]
      decide
    rw [marked]
    simp [parsed, unchecked, Params.AsksCapabilities, wfs]
  · intro gateway passage reply text same success utf8
    simp [Gateway.rewritten?, same, success, utf8]

/-- Capabilities that are asked for twice, in the parameters and in a document. -/
def postedCapabilities : Request :=
  postedBare ⟨[("SERVICE", "WFS"), ("REQUEST", "GetCapabilities")]⟩ "wfs:GetCapabilities"

theorem capabilities_posted :
    ∃ inspection request', postedCapabilities.inspect (.ofLayers (oneAttribute "name").layers)
        (some (.ofRoles (oneAttribute "name").roles)) = .ok (inspection, request') ∧
      inspection.operation = .getCapabilities := by
  have once : Unrepeated postedCapabilities.params := by
    rw [← repeated?_eq_none_iff]
    decide
  have operation : Operation.classify postedCapabilities.method postedCapabilities.params =
      .getCapabilities := by decide
  have parsed : Document.ofBytes postedCapabilities.body = .ok (bareDocument "wfs:GetCapabilities") :=
    ofBytes_bareDocument (by decide)
  have root : (bareDocument "wfs:GetCapabilities").root.localName = "GetCapabilities" := by decide
  have document : DocumentAccepted (oneAttribute "name").roles
      (.ofLayers (oneAttribute "name").layers) (bareDocument "wfs:GetCapabilities").root :=
    ⟨fun e => absurd (root.symm.trans e) (by decide), fun e => absurd (root.symm.trans e) (by decide)⟩
  have accepted : ∃ outcome, postedCapabilities.inspect (.ofLayers (oneAttribute "name").layers)
      (some (.ofRoles (oneAttribute "name").roles)) = .ok outcome :=
    exists_inspect_eq_ok_iff.2 ⟨once, by rw [operation]; trivial, fun _ => ⟨_, parsed, document⟩⟩
  obtain ⟨⟨inspection, request'⟩, h⟩ := accepted
  obtain ⟨-, asked, -⟩ := capabilities_iff h
  have service : postedCapabilities.params.Says "SERVICE" "WFS" := by decide
  have named : postedCapabilities.params.Says "REQUEST" "GetCapabilities" := by decide
  exact ⟨inspection, request', h, (asked service _ parsed root).2 named⟩

/-- Capabilities that only a document asks for: the request goes on, with roles and
without, and the answer reaches the client as the renderer wrote it. -/
theorem capabilities_unmarked :
    let settings := oneAttribute "name"
    let request := postedBare ⟨[("SERVICE", "WFS")]⟩ "GetCapabilities"
    settings.validate = .ok settings ∧ request.params.Says "SERVICE" "WFS" ∧
      Document.ofBytes request.body = .ok (bareDocument "GetCapabilities") ∧
      (bareDocument "GetCapabilities").root.localName = "GetCapabilities" ∧
      ∀ context? ∈ [none, some (.ofUser .anonymous settings.roles)],
        ∃ inspection request',
          request.inspect (.ofLayers settings.layers) context? = .ok (inspection, request') ∧
          inspection.operation ≠ .getCapabilities ∧
          ∀ (gateway : Gateway) (reply : Reply),
            (gateway.passOn ⟨inspection, request'⟩ reply).body = reply.body := by
  have once : Unrepeated ⟨[("SERVICE", "WFS")]⟩ := by
    rw [← repeated?_eq_none_iff]
    decide
  have other : ¬ Checked (bareDocument "GetCapabilities").root :=
    rootOperation_eq_passThrough_iff.1 (by decide)
  have unmarked : ∀ (inspection : Inspection) (request' : Request),
      inspection.operation ≠ .getCapabilities → ∀ (gateway : Gateway) (reply : Reply),
        (gateway.passOn ⟨inspection, request'⟩ reply).body = reply.body := by
    intro inspection request' h gateway reply
    simp [Gateway.passOn, Gateway.rewritten?, h]
  refine ⟨rfl, by decide, ofBytes_bareDocument (by decide), by decide, ?_⟩
  intro context? hc
  rcases List.mem_pair.1 hc with rfl | rfl
  · exact ⟨_, _, inspect_none_eq_ok_iff.2 ⟨once, rfl⟩, by decide, unmarked _ _ (by decide)⟩
  · exact ⟨_, _, inspect_postedBare (by decide) other once (by decide), by decide,
      unmarked _ _ (by decide)⟩

end MapGate
