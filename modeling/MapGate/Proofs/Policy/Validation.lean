import Mathlib.Data.List.Nodup
import MapGate.Proofs.Policy.LayerIndex

/-!
# The layers of a policy

Nothing is wrong with the layers of some settings exactly if their IDs are not
empty and those that are published have different names
(`layersFault?_eq_none_iff`). In a policy a published layer therefore shares its
name with no other (`publishesAlone_iff`), so that a name resolves to the layer
that is published under its local part (`resolve_iff`).
-/

namespace MapGate.ProjectSettings

variable {settings settings' : ProjectSettings} {entries : List (String × LayerSettings)}
  {published : List (String × String)} {id name : String}

/-- The names under which the layers of a list are published. -/
def publishedNames (entries : List (String × LayerSettings)) : List String :=
  (entries.filter fun entry => !entry.2.isExcluded).map (·.2.name)

theorem lookup_eq_none_iff : published.lookup name = none ↔ name ∉ published.map (·.1) := by
  simp only [List.lookup_eq_none_iff, List.mem_map, not_exists, not_and, bne_iff_ne]
  exact forall₂_congr fun _ _ => ne_comm

theorem layersFault?_eq_none_iff : layersFault? published entries = none ↔
    (∀ entry ∈ entries, entry.1 ≠ unknownLayer) ∧ (publishedNames entries).Nodup ∧
      ∀ name ∈ publishedNames entries, name ∉ published.map (·.1) := by
  induction entries generalizing published with
  | nil => simp [layersFault?, publishedNames]
  | cons entry entries ih =>
    obtain ⟨id, layer⟩ := entry
    rw [layersFault?, List.forall_mem_cons]
    by_cases hid : id = unknownLayer
    · simp [hid]
    · rw [if_neg hid, and_assoc, and_iff_right (show (id, layer).1 ≠ unknownLayer from hid)]
      cases he : layer.isExcluded with
      | true =>
        have skipped : publishedNames ((id, layer) :: entries) = publishedNames entries := by
          simp [publishedNames, he]
        rw [if_pos rfl, skipped, ih]
      | false =>
        have added : publishedNames ((id, layer) :: entries) =
            layer.name :: publishedNames entries := by simp [publishedNames, he]
        rw [if_neg Bool.false_ne_true, added, List.nodup_cons, List.forall_mem_cons,
          ← lookup_eq_none_iff]
        cases hl : published.lookup layer.name with
        | some first => simp
        | none =>
          -- The name of this layer counts as taken for the layers after it.
          simp only [ih, List.map_cons, List.mem_cons, not_or, true_and]
          refine and_congr_right fun _ => ⟨fun h => ?_, fun h => ?_⟩
          · obtain ⟨nodup, apart⟩ := h
            exact ⟨⟨fun hm => (apart _ hm).1 rfl, nodup⟩, fun name hn => (apart name hn).2⟩
          · obtain ⟨⟨new, nodup⟩, apart⟩ := h
            exact ⟨nodup, fun name hn => ⟨fun e => new (e ▸ hn), apart name hn⟩⟩

/-- The names of published layers differ if no two layers are published under one. -/
theorem nodup_publishedNames_iff {layers : NameMap LayerSettings} :
    (publishedNames layers.toList).Nodup ↔
      ∀ name id id', Publishes layers id name → Publishes layers id' name → id = id' := by
  let shown := layers.toList.filter fun entry => !entry.2.isExcluded
  have mem_shown : ∀ {entry}, entry ∈ shown ↔
      layers[entry.1]? = some entry.2 ∧ entry.2.isExcluded = false := fun {entry} => by
    rw [List.mem_filter, ← Std.TreeMap.mem_toList_iff_getElem?_eq_some, Bool.not_eq_true']
  have nodup : shown.Nodup := List.Pairwise.filter _ <|
    layers.distinct_keys_toList.imp fun {entry other} differ (e : entry = other) =>
      differ (by rw [e]; exact Std.ReflCmp.compare_self)
  rw [publishedNames, List.nodup_map_iff_inj_on nodup]
  constructor
  · intro distinct name id id' h h'
    obtain ⟨layer, hl, he, hn⟩ := h
    obtain ⟨layer', hl', he', hn'⟩ := h'
    exact congrArg Prod.fst (distinct (id, layer) (mem_shown.2 ⟨hl, he⟩) (id', layer')
      (mem_shown.2 ⟨hl', he'⟩) (hn.trans hn'.symm))
  · intro alone entry he other ho same
    obtain ⟨hl, hx⟩ := mem_shown.1 he
    obtain ⟨hl', hx'⟩ := mem_shown.1 ho
    have ids := alone _ _ _ ⟨entry.2, hl, hx, rfl⟩ ⟨other.2, hl', hx', same.symm⟩
    exact Prod.ext ids (Option.some.inj (hl.symm.trans (ids ▸ hl')))

theorem validate_eq_ok_iff : settings.validate = .ok settings' ↔
    fileFault? settings.projectFile = none ∧ layersFault? [] settings.layers.toList = none ∧
      rolesFault? [] settings.roles = none ∧ settings' = settings := by
  rw [validate, fault?]
  cases fileFault? settings.projectFile <;> cases layersFault? [] settings.layers.toList <;>
    cases rolesFault? [] settings.roles <;> simp [eq_comm]

section

variable (valid : settings.validate = .ok settings')
include valid

theorem ne_unknownLayer_of_validate {layer : LayerSettings}
    (h : settings.layers[id]? = some layer) : id ≠ unknownLayer :=
  (layersFault?_eq_none_iff.1 (validate_eq_ok_iff.1 valid).2.1).1 (id, layer)
    (Std.TreeMap.mem_toList_iff_getElem?_eq_some.2 h)

theorem publishesAlone_iff :
    PublishesAlone settings.layers id name ↔ Publishes settings.layers id name := by
  have nodup := (layersFault?_eq_none_iff.1 (validate_eq_ok_iff.1 valid).2.1).2.1
  exact ⟨fun h => h.published, fun h =>
    ⟨h, fun other ho => nodup_publishedNames_iff.1 nodup name other id ho h⟩⟩

theorem resolve_iff (h : id ≠ unknownLayer) :
    (LayerIndex.ofLayers settings.layers).resolve name = id ↔
      Publishes settings.layers id (Text.localName name) := by
  rw [LayerIndex.resolve_ofLayers_iff h, publishesAlone_iff valid]

end

end MapGate.ProjectSettings
