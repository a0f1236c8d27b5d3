import MapGate.Proofs.Ows.FormEncoding
import MapGate.Proofs.Text.Pieces
import MapGate.Url.Basic

/-!
# Parameters in the query of a URL

All that occurs in form-encoded parameters stands for itself in a query, whatever
the scheme is (`encodeQuery_toQuery`). So a URL has the parameters that it was given
as its query (`params_setQuery`).
-/

namespace MapGate.Url

theorem keeps_encodeByte : ∀ b : UInt8, (Params.encodeByte b).all keepsInSpecialQuery = true :=
  Text.forall_byte (by decide +kernel)

theorem keeps_encodePair (pair : String × String) :
    ∀ c ∈ Params.encodePair pair, keepsInSpecialQuery c = true := by
  have text : ∀ s, ∀ c ∈ Params.encodeChars s, keepsInSpecialQuery c = true := fun s c hc => by
    obtain ⟨b, -, hb⟩ := List.mem_flatMap.1 hc
    exact List.all_eq_true.1 (keeps_encodeByte b) c hb
  intro c hc
  rw [Params.encodePair, List.mem_append, List.mem_cons] at hc
  rcases hc with hc | rfl | hc
  · exact text _ c hc
  · decide
  · exact text _ c hc

theorem keeps_toQuery (params : Params) :
    ∀ c ∈ params.toQuery.toList, keepsInSpecialQuery c = true := by
  rw [Params.toQuery, String.toList_ofList]
  refine Text.forall_mem_intercalate (fun c hc => ?_) fun l hl => ?_
  · rw [List.mem_singleton.1 hc]
    decide
  · obtain ⟨pair, -, rfl⟩ := List.mem_map.1 hl
    exact keeps_encodePair pair

/-- Nothing in a query of parameters has to be encoded. -/
theorem encodeQuery_toQuery (scheme : String) (params : Params) :
    encodeQuery scheme params.toQuery.toList = params.toQuery.toList := by
  refine Text.percentEncode_eq_self fun c hc => ?_
  have keeps := keeps_toQuery params c hc
  split
  · exact keeps
  · exact (Bool.and_eq_true_iff.1 keeps).1

/-- A URL has the parameters that its query was made of, in their order. -/
theorem params_setQuery (url : Url) (params : Params) :
    (url.setQuery params.toQuery).params = params := by
  rw [Url.params, setQuery, encodeQuery_toQuery, Option.getD_some, String.ofList_toList,
    Params.ofQuery_toQuery]

end MapGate.Url
