import Mathlib.Data.List.Perm.Basic
import MapGate.Gate.Inspection
import MapGate.Proofs.Ows.Params
import MapGate.Proofs.Text.LetterCase

/-!
# Parameters in another order

Two lists of parameters are arranged differently when they are permutations of each
other once names are made capital, and the values of `SERVICE` and `REQUEST` trimmed
and made capital (`Params.Rearranges`). Such lists have the same parameters, as often
(`Rearranges.count`), and the value of a parameter that occurs once does not depend on
where it stands (`Rearranges.get?`). So the same groups of decision parameters are
repeated (`Rearranges.repeated?`), and where none is, the same operation is asked for
(`Rearranges.classify`).
-/

namespace MapGate.Params

variable {name value : String} {params params' : Params}

/-- The value of a parameter with what does not matter to it left out. -/
def canonicalValue (name value : String) : String :=
  if Text.upper name = "SERVICE" ∨ Text.upper name = "REQUEST" then Text.upper (Text.trim value)
  else value

/-- A parameter with a capital name, and a value from which what does not matter is
left out. -/
def canonicalPair (pair : String × String) : String × String :=
  (Text.upper pair.1, canonicalValue pair.1 pair.2)

/-- The parameters are the same in another order and another spelling of names. -/
def Rearranges (params params' : Params) : Prop :=
  (params.pairs.map canonicalPair).Perm (params'.pairs.map canonicalPair)

theorem Rearranges.symm (h : params.Rearranges params') : params'.Rearranges params := List.Perm.symm h

/-! ## Spelling -/

theorem canonicalValue_congr {key : String} (h : Text.sameName key name) (value : String) :
    canonicalValue key value = canonicalValue name value := by
  rw [canonicalValue, canonicalValue, Text.upper_eq_upper_iff.2 h]

theorem canonicalValue_eq_self (service : Text.sameName name "SERVICE" = false)
    (request : Text.sameName name "REQUEST" = false) (value : String) :
    canonicalValue name value = value := by
  refine if_neg fun h => ?_
  rcases h with h | h
  · rw [Text.upper_eq_upper_iff (t := "SERVICE") |>.1 h] at service
    cases service
  · rw [Text.upper_eq_upper_iff (t := "REQUEST") |>.1 h] at request
    cases request

theorem sameName_upper (name other : String) :
    Text.sameName (Text.upper name) other = Text.sameName name other := by
  rw [Bool.eq_iff_iff, Text.sameName_iff, Text.sameName_iff, Text.lower_upper]

theorem named_canonicalPair (name : String) (pair : String × String) :
    named name (canonicalPair pair) = named name pair :=
  sameName_upper pair.1 name

theorem listsMapLayers_upper (name : String) :
    listsMapLayers (Text.upper name) = listsMapLayers name := by
  have twice : Text.upper (Text.upper name) = Text.upper name :=
    Text.upper_eq_upper_iff.2 (Text.sameName_iff.2 (Text.lower_upper name))
  rw [listsMapLayers, twice, Text.utf8ByteSize_upper, listsMapLayers]

/-! ## Look-ups -/

/-- The pairs whose name will do, where case does not matter to that. -/
theorem Rearranges.filter (h : params.Rearranges params') {p : String × String → Bool}
    (hp : ∀ pair, p (canonicalPair pair) = p pair) :
    ((params.pairs.filter p).map canonicalPair).Perm ((params'.pairs.filter p).map canonicalPair) := by
  have same : ∀ pairs : List (String × String),
      (pairs.filter p).map canonicalPair = (pairs.map canonicalPair).filter p := fun pairs => by
    rw [List.filter_map]
    exact congrArg _ (List.filter_congr fun pair _ => (hp pair).symm)
  rw [same, same]
  exact List.Perm.filter p h

theorem Rearranges.count (h : params.Rearranges params') (name : String) :
    params.count name = params'.count name := by
  have length := (h.filter (named_canonicalPair name)).length_eq
  rwa [List.length_map, List.length_map, ← List.countP_eq_length_filter,
    ← List.countP_eq_length_filter] at length

/-- A parameter that occurs once has the same value wherever it stands. -/
theorem Rearranges.map_get? (h : params.Rearranges params') (once : params.count name ≤ 1) :
    (params.get? name).map (canonicalValue name) = (params'.get? name).map (canonicalValue name) := by
  have perm := h.filter (named_canonicalPair name)
  have value : ∀ params : Params, (params.get? name).map (canonicalValue name) =
      ((params.pairs.filter (named name)).map canonicalPair).head?.map (·.2) := fun params => by
    rw [get?, List.head?_map, List.head?_filter, Option.map_map, Option.map_map]
    cases found : params.pairs.find? (named name) with
    | none => rfl
    | some pair =>
      have same : named name pair = true := List.find?_some found
      exact congrArg some (canonicalValue_congr same pair.2).symm
  rw [Params.count, List.countP_eq_length_filter] at once
  rw [value, value]
  generalize params.pairs.filter (named name) = found at once perm
  rcases found with _ | ⟨pair, _ | _⟩
  · rw [List.nil_perm.1 perm, List.map_nil]
  · rw [← List.singleton_perm.1 perm, List.map_singleton]
  · simp at once

theorem Rearranges.get? (h : params.Rearranges params') (once : params.count name ≤ 1)
    (service : Text.sameName name "SERVICE" = false)
    (request : Text.sameName name "REQUEST" = false) : params.get? name = params'.get? name := by
  have same := h.map_get? once
  rwa [funext (canonicalValue_eq_self service request), Option.map_id', Option.map_id'] at same

theorem Rearranges.contains (h : params.Rearranges params') (name : String) :
    params.contains name = params'.contains name := by
  have found : ∀ params : Params, params.contains name = decide (0 < params.count name) := fun params => by
    rw [Bool.eq_iff_iff, decide_eq_true_eq, Params.count, List.countP_pos_iff, Params.contains,
      Params.get?, Option.isSome_map, List.find?_isSome]
  rw [found, found, h.count]

/-- A parameter that lists the layers of one map does so wherever it stands. -/
theorem Rearranges.mem_filterNames (h : params.Rearranges params') {pair : String × String}
    (hp : pair ∈ params.filterNames listsMapLayers) :
    ∃ pair' ∈ params'.filterNames listsMapLayers, pair'.2 = pair.2 := by
  have other : ∀ pair : String × String, listsMapLayers pair.1 = true →
      canonicalValue pair.1 pair.2 = pair.2 := fun pair lists => by
    refine if_neg fun named => ?_
    rw [← listsMapLayers_upper] at lists
    rcases named with named | named <;> rw [named] at lists <;> exact absurd lists (by decide)
  have perm := h.filter (p := fun pair => listsMapLayers pair.1) fun pair => listsMapLayers_upper pair.1
  obtain ⟨pair', hp', e⟩ := List.mem_map.1 (perm.subset (List.mem_map_of_mem hp))
  refine ⟨pair', hp', ?_⟩
  rw [← other pair (List.mem_filter.1 hp).2, ← other pair' (List.mem_filter.1 hp').2]
  exact congrArg Prod.snd e

/-! ## Decisions -/

theorem Rearranges.repeated? (h : params.Rearranges params') : params.repeated? = params'.repeated? := by
  have counts : params.countGroup = params'.countGroup := funext fun group => by
    rw [countGroup, countGroup, List.map_congr_left fun name _ => h.count name]
  rw [Params.repeated?, Params.repeated?, counts]

theorem Rearranges.hasStyle (h : params.Rearranges params') : params.hasStyle = params'.hasStyle := by
  rw [Params.hasStyle, Params.hasStyle, h.contains, h.contains]

theorem Rearranges.classify (h : params.Rearranges params') (service : params.count "SERVICE" ≤ 1)
    (request : params.count "REQUEST" ≤ 1) (method : Method) :
    Operation.classify method params = Operation.classify method params' := by
  have capitals : (fun s => Text.upper (Text.trim s)) = canonicalValue "SERVICE" :=
    funext fun _ => (if_pos (.inl (by decide))).symm
  have small : (fun s => Text.lower (Text.trim s)) = Text.lower ∘ canonicalValue "REQUEST" :=
    funext fun s => by
      rw [Function.comp_apply, canonicalValue, if_pos (.inr (by decide)), Text.lower_upper]
  rw [Operation.classify, Operation.classify, capitals, small, ← Option.map_map, ← Option.map_map,
    h.map_get? service, h.map_get? request]

/-! ## Setting -/

/-- What is set is arranged differently if it was before. -/
theorem Rearranges.set (h : params.Rearranges params') (name value : String) :
    (params.set name value).Rearranges (params'.set name value) := by
  have split : ∀ params : Params, (params.set name value).pairs.Perm
      ((name, value) :: (params.remove name).pairs) := fun params => by
    rw [← (remove_set_self : (params.set name value).remove name = _)]
    have perm := List.filter_append_perm (named name) (params.set name value).pairs
    rw [Params.set, filter_setPairs_self, List.singleton_append] at perm
    exact perm.symm
  have rest := h.filter (p := fun pair => !named name pair) fun pair => by rw [named_canonicalPair]
  have front : ∀ params : Params, ((params.set name value).pairs.map canonicalPair).Perm
      (canonicalPair (name, value) :: (params.remove name).pairs.map canonicalPair) :=
    fun params => (split params).map canonicalPair
  exact (front params).trans ((rest.cons _).trans (front params').symm)

end MapGate.Params
