import Mathlib.Data.List.InsertIdx
import MapGate.Proofs.Ows.Params

/-!
# Parameters that are set

A parameter that is set takes the place of the first one of its name, of which no other is
left, or the last place if there was none (`setInPlace_set`); that is to insert it, where the
first one stood, into what is left after all of its name are removed
(`set_eq_insertIdx`). To set it to the same value again changes nothing (`set_set`). Of
parameters with different names it does not matter which is set first
(`set_comm`), unless both are new: then they stand in the order in which they were
set.
-/

namespace MapGate.Params

variable {name other value value' : String} {params : Params}

/-- Where the first parameter of a name stands, which is behind the last one if there is
none. -/
def position (params : Params) (name : String) : Nat := params.pairs.findIdx (named name)

/-- There is one parameter of a name, which stands in the place of the first one that there
was, or in the last place, and all others are as they were. -/
structure SetInPlace (params : Params) (name value : String) (result : Params) : Prop where
  once : result.pairs.filter (named name) = [(name, value)]
  others : result.remove name = params.remove name
  place : result.pairs[params.position name]? = some (name, value)
  last : params.contains name = false → result.pairs = params.pairs ++ [(name, value)]

theorem named_self (name value : String) : named name (name, value) = true := Text.sameName_refl name

/-- A pair of one name does not carry a parameter of a different one. -/
theorem named_eq_false_of_ne (h : Text.sameName name other = false) (value : String) :
    named name (other, value) = false :=
  named_eq_false_of_named h (named_self other value)

theorem contains_eq_any : params.contains name = params.pairs.any (named name) := by
  rw [Bool.eq_iff_iff, contains, get?, Option.isSome_map, List.find?_isSome, List.any_eq_true]

/-! ## Place -/

/-- To set a parameter is to insert it, where the first one stood, into what is left when all
of its name are removed. -/
theorem setPairs_eq_insertIdx (pairs : List (String × String)) : setPairs name value pairs =
    (pairs.filter (!named name ·)).insertIdx (pairs.findIdx (named name)) (name, value) := by
  induction pairs with
  | nil => rfl
  | cons pair pairs ih =>
    rw [setPairs, List.findIdx_cons]
    cases h : named name pair with
    | true =>
      rw [if_pos rfl, List.filter_cons_of_neg (by simp [h])]
      rfl
    | false =>
      rw [if_neg Bool.false_ne_true, List.filter_cons_of_pos (by simp [h]), ih]
      rfl

theorem set_eq_insertIdx : (params.set name value).pairs =
    (params.remove name).pairs.insertIdx (params.position name) (name, value) :=
  setPairs_eq_insertIdx params.pairs

/-- The pairs in front of the first one of a name are left when those of the name are
removed. -/
theorem position_le_length_remove : params.position name ≤ (params.remove name).pairs.length := by
  rw [position, remove]
  induction params.pairs with
  | nil => exact Nat.le_refl 0
  | cons pair pairs ih =>
    rw [List.findIdx_cons]
    cases h : named name pair with
    | true => exact Nat.zero_le _
    | false =>
      rw [List.filter_cons_of_pos (by simp [h])]
      exact Nat.succ_le_succ ih

theorem getElem?_position_set :
    (params.set name value).pairs[params.position name]? = some (name, value) := by
  rw [set_eq_insertIdx, List.getElem?_insertIdx_self, if_pos position_le_length_remove]

/-- A parameter of a new name is the last one. -/
theorem setPairs_of_absent {pairs : List (String × String)}
    (h : pairs.any (named name) = false) : setPairs name value pairs = pairs ++ [(name, value)] := by
  induction pairs with
  | nil => rfl
  | cons pair pairs ih =>
    rw [List.any_cons, Bool.or_eq_false_iff] at h
    rw [setPairs, h.1, if_neg Bool.false_ne_true, ih h.2, List.cons_append]

theorem setInPlace_set : params.SetInPlace name value (params.set name value) where
  once := filter_setPairs_self params.pairs
  others := remove_set_self
  place := getElem?_position_set
  last absent := setPairs_of_absent (contains_eq_any ▸ absent)

/-! ## More than once -/

/-- To set a parameter again to the value that it has changes nothing. -/
theorem set_set : (params.set name value).set name value = params.set name value := by
  have self := named_self name value
  simp only [set, mk.injEq]
  induction params.pairs with
  | nil => simp [setPairs, self]
  | cons pair pairs ih =>
    rw [setPairs]
    split
    · rw [setPairs, if_pos self, List.filter_filter]
      simp
    · rename_i h
      rw [setPairs, if_neg h, ih]

/-- What is set stays when parameters of another name are removed. -/
theorem filter_not_setPairs_of_ne (h : Text.sameName name other = false)
    (pairs : List (String × String)) : (setPairs other value pairs).filter (!named name ·) =
      setPairs other value (pairs.filter (!named name ·)) := by
  have kept : (!named name (other, value)) = true := by rw [named_eq_false_of_ne h, Bool.not_false]
  induction pairs with
  | nil => simp [setPairs, kept]
  | cons pair pairs ih =>
    rw [setPairs]
    cases ho : named other pair with
    | true =>
      have hn := named_eq_false_of_named h ho
      simp [hn, ho, kept, setPairs, List.filter_filter, Bool.and_comm]
    | false =>
      rw [if_neg Bool.false_ne_true]
      cases hn : named name pair with
      | true => simp [hn, ih]
      | false => simp [hn, ih, setPairs, ho]

/-- Of two parameters of which one is there already, it does not matter which is set
first. -/
theorem setPairs_comm (h : Text.sameName name other = false) {pairs : List (String × String)}
    (present : pairs.any (named name) = true ∨ pairs.any (named other) = true) :
    setPairs other value' (setPairs name value pairs) =
      setPairs name value (setPairs other value' pairs) := by
  have h' : Text.sameName other name = false := by rw [Text.sameName_comm, h]
  have new := named_eq_false_of_ne h' value
  have new' := named_eq_false_of_ne h value'
  induction pairs with
  | nil => simp at present
  | cons pair pairs ih =>
    cases hn : named name pair with
    | true =>
      have ho := named_eq_false_of_named h' hn
      simp [setPairs, hn, ho, new, filter_not_setPairs_of_ne h]
    | false =>
      cases ho : named other pair with
      | true => simp [setPairs, hn, ho, new', filter_not_setPairs_of_ne h']
      | false =>
        rw [List.any_cons, List.any_cons, hn, ho, Bool.false_or, Bool.false_or] at present
        simp [setPairs, hn, ho, ih present]

theorem set_comm (h : Text.sameName name other = false)
    (present : params.contains name = true ∨ params.contains other = true) :
    (params.set name value).set other value' = (params.set other value').set name value := by
  rw [contains_eq_any, contains_eq_any] at present
  exact congrArg mk (setPairs_comm h present)

/-- Two parameters of new names stand in the order in which they were set. -/
theorem set_set_of_absent (h : Text.sameName name other = false)
    (absent : params.contains name = false) (absent' : params.contains other = false) :
    ((params.set name value).set other value').pairs =
      params.pairs ++ [(name, value), (other, value')] := by
  have h' : Text.sameName other name = false := by rw [Text.sameName_comm, h]
  have new := named_eq_false_of_ne h' value
  rw [contains_eq_any] at absent absent'
  have first : (params.set name value).pairs = params.pairs ++ [(name, value)] :=
    setPairs_of_absent absent
  have second : (params.set name value).pairs.any (named other) = false := by
    rw [first, List.any_append, absent', List.any_cons, new]
    rfl
  rw [set, setPairs_of_absent second, first, List.append_assoc]
  rfl

end MapGate.Params
