import MapGate.Proofs.Gate.LayerReferences
import MapGate.Proofs.Policy.Validation

/-!
# What published layers are decided on

In a policy the name of a published layer leads to that layer, so that a request
for it is decided on the layer's own flags, unless there is a colon in the name:
then only what follows the colon is looked up (`resolve_published`).

A name leads to a layer exactly if that layer alone is published under it. All
other names lead to no layer, on which nothing is ever permitted
(`reachable_exact`).
-/

namespace MapGate

open Transaction (twoLayers)

/-- A layer is published under one name. -/
theorem Publishes.name {layers : NameMap LayerSettings} {id name : String} {layer : LayerSettings}
    (h : Publishes layers id name) (found : layers[id]? = some layer) : layer.name = name := by
  obtain ⟨layer', hl, -, rfl⟩ := h
  rw [Option.some.inj (found.symm.trans hl)]

/-- In a policy the name of a published layer leads to the layer itself exactly if
there is no colon in it, and otherwise to the layer that is published under what
follows the colon. A name without a colon is decided on the flags of its layer. -/
theorem resolve_published {settings : ProjectSettings} {id : String} {layer : LayerSettings}
    (valid : settings.validate = .ok settings) (found : settings.layers[id]? = some layer)
    (published : layer.isExcluded = false) :
    let index := LayerIndex.ofLayers settings.layers
    (index.resolve layer.name = id ↔ ':' ∉ layer.name.toList) ∧
    (∀ other, other ≠ unknownLayer → (index.resolve layer.name = other ↔
      Publishes settings.layers other (Text.localName layer.name))) ∧
    (':' ∉ layer.name.toList →
      (∀ roles permission, (Check.requireLayer index layer.name permission).eval roles =
        if PermitsLayer roles id permission then .ok id
        else .error (.denied (.layerLacks layer.name permission.tag))) ∧
      ∀ (context : PermissionContext) (request : Request) (outcome : Inspection × Request)
        (permission : Permission), request.inspect index (some context) = .ok outcome →
        request.Refers layer.name permission → PermitsLayer context.roles id permission) := by
  intro index
  have known := ProjectSettings.ne_unknownLayer_of_validate valid found
  have own : index.resolve layer.name = id ↔ ':' ∉ layer.name.toList := by
    rw [ProjectSettings.resolve_iff valid known, ← Text.localName_eq_self_iff]
    exact ⟨fun h => (h.name found).symm, fun e => ⟨layer, found, published, e.symm⟩⟩
  refine ⟨own, fun other h => ProjectSettings.resolve_iff valid h, fun plain => ⟨?_, ?_⟩⟩
  · intro roles permission
    rw [Check.eval_requireLayer, own.2 plain]
  · intro context request outcome permission h refers
    rw [← own.2 plain]
    exact permitsLayer_of_refers h refers

theorem resolve_published_roads :
    (twoLayers "ns:roads").validate = .ok (twoLayers "ns:roads") ∧
      (twoLayers "ns:roads").layers["b"]? = some ⟨"roads", ∅⟩ ∧
      (LayerIndex.ofLayers (twoLayers "ns:roads").layers).resolve "roads" = "b" := by
  have found : (twoLayers "ns:roads").layers["b"]? = some ⟨"roads", ∅⟩ := rfl
  exact ⟨rfl, found, (resolve_published rfl found rfl).1.2 (by decide)⟩

/-- A request for the map of one layer. -/
def mapRequest (layer : String) : Request where
  method := .get
  params := ⟨[("SERVICE", "WMS"), ("REQUEST", "GetMap"), ("LAYERS", layer)]⟩
  headers := ⟨[]⟩
  body := .empty
  publicPath := "/ows/a/b"

/-- Two layers that are named alike up to a namespace: a request for the one that
nobody may view goes on, since it is decided on the flags of the other. -/
theorem decided_on_other :
    let settings := twoLayers "ns:roads"
    let request := mapRequest "ns:roads"
    let layer : LayerSettings := ⟨"ns:roads", ∅⟩
    settings.validate = .ok settings ∧ settings.layers["a"]? = some layer ∧
      layer.isExcluded = false ∧ request.Refers layer.name .view ∧
      request.inspect (.ofLayers settings.layers) (some (.ofUser .anonymous settings.roles)) =
        .ok (⟨.getMap, false⟩, request) ∧
      (LayerIndex.ofLayers settings.layers).resolve layer.name ≠ "a" ∧
      ¬ PermitsLayer (applicableRoles .anonymous settings.roles) "a" .view := by
  have operation : Operation.classify (mapRequest "ns:roads").method
      (mapRequest "ns:roads").params = .getMap := by decide
  have refers : (mapRequest "ns:roads").Refers "ns:roads" .view :=
    .params (operation ▸ .map (by decide))
  refine ⟨rfl, rfl, rfl, refers, rfl, ?_, fun h => ?_⟩
  · decide
  · exact absurd (has_layerFlags_iff.2 h) (Bool.eq_false_iff.1 rfl)

/-! ## No layer -/

/-- A name leads to a layer exactly if that layer is published under the local part
of the name, and no other is; otherwise it leads to no layer. Whatever the roles
say, no layer has no flags, and a request that refers to it does not go on. -/
theorem reachable_exact (layers : NameMap LayerSettings) (name : String) :
    (∀ id, id ≠ unknownLayer → ((LayerIndex.ofLayers layers).resolve name = id ↔
      PublishesAlone layers id (Text.localName name))) ∧
    ((∀ id, id ≠ unknownLayer → ¬ PublishesAlone layers id (Text.localName name)) →
      (LayerIndex.ofLayers layers).resolve name = unknownLayer) ∧
    (∀ context : PermissionContext, (context.layerFlags unknownLayer).1 = ∅ ∧
      (context.attributesFlags unknownLayer).1 = ∅ ∧
      ∀ attr, (context.attributeFlags unknownLayer attr).1 = ∅) ∧
    ∀ index : LayerIndex, index.resolve name = unknownLayer →
      (∀ roles permission, ¬ (Check.requireLayer index name permission).Accepts roles) ∧
      ∀ (request : Request) (permission : Permission), request.Refers name permission →
        ∀ context outcome, request.inspect index (some context) ≠ .ok outcome := by
  have reached : ∀ id, id ≠ unknownLayer → ((LayerIndex.ofLayers layers).resolve name = id ↔
      PublishesAlone layers id (Text.localName name)) :=
    fun _ h => LayerIndex.resolve_ofLayers_iff h
  refine ⟨reached, fun h => ?_, fun context => ?_, fun index unknown => ⟨?_, ?_⟩⟩
  · by_contra hne
    exact h _ hne ((reached _ hne).1 rfl)
  · simp
  · intro roles permission h
    rw [Check.accepts_requireLayer, unknown] at h
    exact not_permitsLayer_unknownLayer h
  · intro request permission refers context outcome h
    have permitted := permitsLayer_of_refers h refers
    rw [unknown] at permitted
    exact not_permitsLayer_unknownLayer permitted

end MapGate
