import MapGate.Gate.Direction
import MapGate.Proofs.Ows.SetParameters
import MapGate.Proofs.Url.Query

/-!
# Requests pointed at the renderer

The renderer reads the parameters that the gate has checked: they are read back from the
query that they are written as, and the URL of the renderer is left as it is but for that
query (`target_eq`), so what is read from it are these parameters
(`sent_as_inspected`). Among them is one `MAP`, which is set in place of all that the client
gave (`set_exact`).
-/

namespace MapGate.Params

variable {params : Params} {name value : String}

/-- The URL that a request goes to is the one of the renderer with the query of the
request, which needs no further encoding. -/
theorem target_eq (renderer : RendererSettings) (params : Params) :
    renderer.target params = { renderer.url with query? := some params.toQuery.toList } := by
  rw [RendererSettings.target, Url.setQuery, Url.encodeQuery_toQuery]

/-- Parameters are read back from the query they are written as, and from the URL that a
request with them goes to, whatever the URL of the renderer is. So a query that was read is
read in the same way after it was written again. -/
theorem sent_as_inspected (params : Params) :
    ofQuery params.toQuery = params ∧
      (∀ renderer : RendererSettings, (renderer.target params).params = params ∧
        renderer.target params = { renderer.url with query? := some params.toQuery.toList }) ∧
      ∀ query, ofQuery (ofQuery query).toQuery = ofQuery query :=
  ⟨ofQuery_toQuery params, fun renderer => ⟨Url.params_setQuery renderer.url params,
    target_eq renderer params⟩, fun query => ofQuery_toQuery (ofQuery query)⟩

/-- A name with an accent and a value with all separators, written in a query and read
back from it. -/
example : ofQuery (⟨[("Größe", "a=b&c;+ %41\n"), ("", "")]⟩ : Params).toQuery =
    ⟨[("Größe", "a=b&c;+ %41\n"), ("", "")]⟩ := by
  decide +kernel

/-- The request that goes to the renderer has one `MAP`, which is set in place. -/
theorem setInPlace_direct (renderer : RendererSettings) (project : ProjectLocation)
    (request : Request) : request.params.SetInPlace "MAP" (renderer.mapPath project)
      (renderer.direct project request).params :=
  setInPlace_set

/-- A parameter is set in place of all of its name, once and for all. Two parameters with
different names may be set in any order, which shows only in the order of those that are new.
So a request for a project has one `MAP`, which is the path of the project, whatever the client
gave. -/
theorem set_exact (params : Params) (name value : String) :
    params.SetInPlace name value (params.set name value) ∧
      (params.set name value).set name value = params.set name value ∧
      (∀ other value', Text.sameName name other = false →
        ((params.contains name = true ∨ params.contains other = true) →
          (params.set name value).set other value' = (params.set other value').set name value) ∧
        (params.contains name = false → params.contains other = false →
          ((params.set name value).set other value').pairs =
              params.pairs ++ [(name, value), (other, value')] ∧
            ((params.set other value').set name value).pairs =
              params.pairs ++ [(other, value'), (name, value)])) ∧
      ∀ (renderer : RendererSettings) (project : ProjectLocation) (request : Request),
        request.params.SetInPlace "MAP" (renderer.mapPath project)
          (renderer.direct project request).params := by
  refine ⟨setInPlace_set, set_set, fun other value' differ => ⟨set_comm differ, ?_⟩,
    setInPlace_direct⟩
  intro absent absent'
  have differ' : Text.sameName other name = false := by rw [Text.sameName_comm, differ]
  exact ⟨set_set_of_absent differ absent absent', set_set_of_absent differ' absent' absent⟩

/-- Parameters of a client that names projects of its own. -/
def twoMaps : Params :=
  ⟨[("SERVICE", "WMS"), ("map", "/evil.qgs"), ("REQUEST", "GetMap"), ("Map", "/other.qgs")]⟩

theorem set_exact_twoMaps :
    (twoMaps.set "MAP" "/p.qgs").pairs =
        [("SERVICE", "WMS"), ("MAP", "/p.qgs"), ("REQUEST", "GetMap")] ∧
      (twoMaps.set "MAP" "/p.qgs").set "LAYERS" "roads" =
        (twoMaps.set "LAYERS" "roads").set "MAP" "/p.qgs" ∧
      ((twoMaps.set "LAYERS" "roads").set "CRS" "EPSG:2056").pairs =
        twoMaps.pairs ++ [("LAYERS", "roads"), ("CRS", "EPSG:2056")] := by
  have known := (set_exact twoMaps "MAP" "/p.qgs").2.2.1 "LAYERS" "roads" (by decide)
  have new := (set_exact twoMaps "LAYERS" "roads").2.2.1 "CRS" "EPSG:2056" (by decide)
  exact ⟨by decide, known.1 (.inl (by decide)), (new.2 (by decide) (by decide)).1⟩

end MapGate.Params
