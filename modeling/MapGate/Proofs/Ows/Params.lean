import MapGate.Ows.Params
import MapGate.Proofs.Text.Named

/-!
# Parameters read and set

The value of a parameter is that of the first pair of its name
(`get?_eq_some_iff`), and of the only one where there is no second
(`get?_of_count_le_one`).

A parameter that is set occurs once, with the value it is set to
(`filter_setPairs_self`), and parameters of other names are not touched
(`filter_setPairs_of_ne`). So the value that is read back is the one that was
set (`get?_set_self`), and other values stay (`get?_set_of_ne`), as they do when a
parameter is removed (`get?_remove_of_ne`).
-/

namespace MapGate.Params

variable {name other value : String} {params : Params}

theorem named_iff {pair : String × String} :
    named name pair = true ↔ Text.lower pair.1 = Text.lower name :=
  Text.sameName_iff

/-! ## Look-ups -/

/-- The first pair of the given name has the given value. -/
def FirstValue (params : Params) (name value : String) : Prop :=
  ∃ before key after, params.pairs = before ++ (key, value) :: after ∧
    Text.sameName key name ∧ ∀ pair ∈ before, ¬ Text.sameName pair.1 name

/-- No pair has the given name. -/
def Lacks (params : Params) (name : String) : Prop :=
  ∀ pair ∈ params.pairs, ¬ Text.sameName pair.1 name

theorem get?_eq_some_iff : params.get? name = some value ↔ params.FirstValue name value :=
  Text.find?_name_eq_some_iff (p := (Text.sameName · name))

theorem get?_eq_none_iff : params.get? name = none ↔ params.Lacks name := by
  rw [get?, Option.map_eq_none_iff, List.find?_eq_none]
  rfl

/-- A parameter that does not occur twice has the value of any pair of its name. -/
theorem get?_of_count_le_one (once : params.count name ≤ 1) {pair : String × String}
    (hp : pair ∈ params.pairs) (hn : Text.sameName pair.1 name) : params.get? name = some pair.2 := by
  have named : pair ∈ params.pairs.filter (Params.named name) := List.mem_filter.2 ⟨hp, hn⟩
  rw [count, List.countP_eq_length_filter] at once
  rw [get?, ← List.head?_filter]
  match params.pairs.filter (Params.named name), named, once with
  | [_], named, _ => rw [List.mem_singleton.1 named]; rfl

/-! ## Setting -/

/-- No pair carries two parameters with different names. -/
theorem named_eq_false_of_named (h : Text.sameName name other = false) {pair : String × String}
    (hp : named other pair = true) : named name pair = false := by
  rw [Bool.eq_false_iff, Ne, named_iff, named_iff.1 hp, eq_comm, ← Text.sameName_iff, h]
  exact Bool.false_ne_true

theorem filter_setPairs_self (pairs : List (String × String)) :
    (setPairs name value pairs).filter (named name) = [(name, value)] := by
  have self : named name (name, value) = true := Text.sameName_refl name
  induction pairs with
  | nil => simp [setPairs, self]
  | cons pair pairs ih =>
    rw [setPairs]
    split
    · rw [List.filter_cons_of_pos self, List.filter_filter]; simp
    · rename_i h; rw [List.filter_cons_of_neg h, ih]

theorem filter_setPairs_of_ne (h : Text.sameName name other = false)
    (pairs : List (String × String)) :
    (setPairs name value pairs).filter (named other) = pairs.filter (named other) := by
  have new : ¬ named other (name, value) = true := by
    show ¬ Text.sameName name other = true; simp [h]
  induction pairs with
  | nil => simp [setPairs, new]
  | cons pair pairs ih =>
    rw [setPairs]
    split
    · rename_i hn
      have hp : ¬ named other pair = true := fun hp => by
        rw [named_eq_false_of_named h hp] at hn; cases hn
      rw [List.filter_cons_of_neg new, List.filter_cons_of_neg hp, List.filter_filter]
      refine List.filter_congr fun pair _ => ?_
      cases hp : named other pair
      · rfl
      · rw [named_eq_false_of_named h hp]; rfl
    · rw [List.filter_cons, List.filter_cons, ih]

/-- Setting a parameter keeps the pairs of other names, in their order. -/
theorem remove_set_self : (params.set name value).remove name = params.remove name := by
  have self : named name (name, value) = true := Text.sameName_refl name
  simp only [remove, set, Params.mk.injEq]
  induction params.pairs with
  | nil => simp [setPairs, self]
  | cons pair pairs ih =>
    rw [setPairs]
    split
    · rename_i h
      rw [List.filter_cons_of_neg (by simp [self]), List.filter_cons_of_neg (by simp [h]),
        List.filter_filter]
      simp
    · rw [List.filter_cons, List.filter_cons, ih]

/-! ## What is read back -/

theorem get?_set_self : (params.set name value).get? name = some value := by
  rw [get?, set, ← List.head?_filter, filter_setPairs_self]; rfl

theorem get?_set_of_ne (h : Text.sameName name other = false) :
    (params.set name value).get? other = params.get? other := by
  rw [get?, set, ← List.head?_filter, filter_setPairs_of_ne h, List.head?_filter, get?]

theorem count_set_self : (params.set name value).count name = 1 := by
  rw [count, set, List.countP_eq_length_filter, filter_setPairs_self]; rfl

theorem count_set_of_ne (h : Text.sameName name other = false) :
    (params.set name value).count other = params.count other := by
  rw [count, set, List.countP_eq_length_filter, filter_setPairs_of_ne h,
    ← List.countP_eq_length_filter, count]

/-- Removing a parameter keeps the pairs of other names. -/
theorem filter_remove_of_ne (h : Text.sameName name other = false) :
    (params.remove name).pairs.filter (named other) = params.pairs.filter (named other) := by
  rw [remove, List.filter_filter]
  refine List.filter_congr fun pair _ => ?_
  cases hp : named other pair
  · rfl
  · rw [named_eq_false_of_named h hp]; rfl

theorem get?_remove_of_ne (h : Text.sameName name other = false) :
    (params.remove name).get? other = params.get? other := by
  rw [get?, ← List.head?_filter, filter_remove_of_ne h, List.head?_filter, get?]

theorem count_remove_of_ne (h : Text.sameName name other = false) :
    (params.remove name).count other = params.count other := by
  rw [count, List.countP_eq_length_filter, filter_remove_of_ne h,
    ← List.countP_eq_length_filter, count]

end MapGate.Params
