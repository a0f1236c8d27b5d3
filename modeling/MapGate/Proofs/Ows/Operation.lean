import MapGate.Ows.Operation
import MapGate.Proofs.Ows.Params
import MapGate.Proofs.Text.LetterCase

/-!
# What parameters ask for

`SERVICE` and `REQUEST` say what a request asks for (`Params.Says`), in whatever
letter case and with blanks around it. Where neither is given twice, that decides
about the operation (`classify_eq`):

* `classify_eq_getCapabilities_iff`: capabilities are asked for by name, of either
  service;
* `classify_of_wfs`: anything else that is posted to the feature service is left
  to the document, and a query or a transaction that is not posted is one in
  parameters.
-/

namespace MapGate

variable {params : Params} {method : Method} {name value other : String}

/-- A parameter of the given name has the given value. Neither the case of letters
matters nor blanks around the value. -/
def Params.Says (params : Params) (name value : String) : Prop :=
  ∃ pair ∈ params.pairs, Text.sameName pair.1 name ∧ Text.sameName (Text.trim pair.2) value

instance (params : Params) (name value : String) : Decidable (params.Says name value) :=
  inferInstanceAs (Decidable (∃ pair ∈ params.pairs,
    Text.sameName pair.1 name ∧ Text.sameName (Text.trim pair.2) value))

/-- Capabilities are asked for by name, of the map or the feature service. -/
def Params.AsksCapabilities (params : Params) : Prop :=
  (params.Says "SERVICE" "WMS" ∨ params.Says "SERVICE" "WFS") ∧
    params.Says "REQUEST" "GetCapabilities"

/-- The parameter that is read says all there is said under its name. -/
theorem Params.says_iff_get? (once : params.count name ≤ 1) :
    params.Says name value ↔
      ∃ text, params.get? name = some text ∧ Text.sameName (Text.trim text) value := by
  constructor
  · intro h
    obtain ⟨pair, hp, named, same⟩ := h
    exact ⟨pair.2, Params.get?_of_count_le_one once hp named, same⟩
  · intro h
    obtain ⟨text, found, same⟩ := h
    obtain ⟨before, key, after, e, named, -⟩ := Params.get?_eq_some_iff.1 found
    have mem : (key, text) ∈ params.pairs := e ▸ List.mem_append_right _ List.mem_cons_self
    exact ⟨(key, text), mem, named, same⟩

/-- No parameter that is given once says two things. -/
theorem Params.Says.unique (once : params.count name ≤ 1) (h : params.Says name value)
    (h' : params.Says name other) : Text.sameName value other := by
  obtain ⟨text, found, same⟩ := (says_iff_get? once).1 h
  obtain ⟨text', found', same'⟩ := (says_iff_get? once).1 h'
  obtain rfl : text = text' := Option.some.inj (found.symm.trans found')
  rw [Text.sameName_iff] at same same' ⊢
  rw [← same, same']

theorem upper_service_iff (once : params.count "SERVICE" ≤ 1) (capitals : Text.upper value = value) :
    (params.get? "SERVICE").map (fun s => Text.upper (Text.trim s)) = some value ↔
      params.Says "SERVICE" value := by
  rw [Params.says_iff_get? once, Option.map_eq_some_iff]
  refine exists_congr fun text => and_congr_right fun _ => ?_
  rw [← Text.upper_eq_upper_iff, capitals]

theorem lower_request_iff (once : params.count "REQUEST" ≤ 1) (small : Text.lower name = value) :
    (params.get? "REQUEST").map (fun s => Text.lower (Text.trim s)) = some value ↔
      params.Says "REQUEST" name := by
  rw [Params.says_iff_get? once, Option.map_eq_some_iff]
  refine exists_congr fun text => and_congr_right fun _ => ?_
  rw [Text.sameName_iff, small]

section

variable (service : params.count "SERVICE" ≤ 1) (request : params.count "REQUEST" ≤ 1)
include service request

/-- What is asked for, said of the parameters. -/
theorem classify_eq : Operation.classify method params =
    if params.Says "SERVICE" "WMS" then
      if params.Says "REQUEST" "GetCapabilities" then .getCapabilities
      else if params.Says "REQUEST" "GetMap" then .getMap
      else if params.Says "REQUEST" "GetPrint" then .getPrint
      else if params.Says "REQUEST" "GetFeatureInfo" then .getFeatureInfo
      else .passThrough
    else if params.Says "SERVICE" "WFS" then
      if params.Says "REQUEST" "GetCapabilities" then .getCapabilities
      else if method = .post then .wfsDocument
      else if params.Says "REQUEST" "GetFeature" then .getFeatureKvp
      else if params.Says "REQUEST" "Transaction" then .transactionKvp
      else .passThrough
    else .passThrough := by
  have named (value : String) (capitals : Text.upper value = value) :=
    upper_service_iff service capitals
  have asked (name value : String) (small : Text.lower name = value) :=
    lower_request_iff request small
  simp only [Operation.classify, named "WMS" (by decide), named "WFS" (by decide),
    asked "GetCapabilities" "getcapabilities" (by decide), asked "GetMap" "getmap" (by decide),
    asked "GetPrint" "getprint" (by decide), asked "GetFeatureInfo" "getfeatureinfo" (by decide),
    asked "GetFeature" "getfeature" (by decide), asked "Transaction" "transaction" (by decide)]

theorem classify_eq_getCapabilities_iff :
    Operation.classify method params = .getCapabilities ↔ params.AsksCapabilities := by
  rw [classify_eq service request, Params.AsksCapabilities]
  by_cases asked : params.Says "REQUEST" "GetCapabilities"
  · simp only [asked, if_true, and_true]
    by_cases wms : params.Says "SERVICE" "WMS"
    · simp [wms]
    · by_cases wfs : params.Says "SERVICE" "WFS" <;> simp [wms, wfs]
  · simp only [asked, if_false, and_false, iff_false]
    repeat' split
    all_goals simp

/-- Where the feature service is asked for a query or a transaction, the document
decides if there is to be one, and else the parameters do. -/
theorem classify_of_wfs (wfs : params.Says "SERVICE" "WFS")
    (asked : params.Says "REQUEST" "GetFeature" ∨ params.Says "REQUEST" "Transaction") :
    Operation.classify method params =
      if method = .post then .wfsDocument
      else if params.Says "REQUEST" "GetFeature" then .getFeatureKvp
      else .transactionKvp := by
  have other : ¬ params.Says "SERVICE" "WMS" := fun wms =>
    absurd (wms.unique service wfs) (by decide)
  have named : ¬ params.Says "REQUEST" "GetCapabilities" := fun h =>
    asked.elim (fun h' => absurd (h.unique request h') (by decide))
      fun h' => absurd (h.unique request h') (by decide)
  rw [classify_eq service request, if_neg other, if_pos wfs, if_neg named]
  by_cases query : params.Says "REQUEST" "GetFeature"
  · simp only [query, if_true]
  · simp only [query, if_false, asked.resolve_left query, if_true]

end

end MapGate
