import MapGate.Gate.Selection
import MapGate.Proofs.Gate.Requirement
import MapGate.Proofs.Text.Trimming

/-!
# What a query may be asked for

A property may be asked for when it is the geometry or a viewable attribute
(`MayAsk`). `eval_selectProperties_iff` says what a query ends up asking for:
what it asked for already, when that is permitted and more than the geometry,
or else the geometry and the viewable attributes, when there are any.
-/

namespace MapGate

variable {roles : List Role} {id : String}

/-- An attribute that may be viewed, and is not the geometry. -/
def Viewable (roles : List Role) (id attr : String) : Prop :=
  attr ≠ geometryProperty ∧ PermitsAttribute roles id attr .view

/-- A property that may be asked for: the geometry, or an attribute that may be
viewed. -/
def MayAsk (roles : List Role) (id property : String) : Prop :=
  property = geometryProperty ∨ PermitsAttribute roles id property .view

/-- The attributes of a layer that may be viewed, in their order. -/
def viewableNames (roles : List Role) (id : String) : List String :=
  viewableAttributes (Grants.attributesFlags roles id)

theorem mem_viewableNames {attr : String} :
    attr ∈ viewableNames roles id ↔ Viewable roles id attr := by
  simp only [viewableNames, viewableAttributes, List.mem_map, List.mem_filter, Prod.exists,
    Std.TreeMap.mem_toList_iff_getElem?_eq_some, Bool.and_eq_true, decide_eq_true_eq, Viewable,
    ← has_attributeFlags_iff, Grants.attributeFlags, Std.TreeMap.getD_eq_getD_getElem?]
  generalize Grants.attributesFlags roles id = attributes
  constructor
  · intro h
    obtain ⟨_, flags, ⟨h, hne, hv⟩, rfl⟩ := h
    exact ⟨hne, by simpa [h] using hv⟩
  · intro h
    obtain ⟨hne, hv⟩ := h
    cases h : attributes[attr]? with
    | none => simp [h] at hv
    | some flags => exact ⟨attr, flags, ⟨h, hne, by simpa [h] using hv⟩, rfl⟩

theorem viewableNames_ne_nil : viewableNames roles id ≠ [] ↔ ∃ attr, Viewable roles id attr := by
  refine ⟨fun h => ?_, fun ⟨attr, h⟩ => List.ne_nil_of_mem (mem_viewableNames.2 h)⟩
  obtain ⟨attr, h⟩ := List.exists_mem_of_ne_nil _ h
  exact ⟨attr, mem_viewableNames.1 h⟩

theorem sorted_viewableNames (roles : List Role) (id : String) :
    (viewableNames roles id).Pairwise (· < ·) := by
  refine List.Pairwise.map _ (fun a b h => ?_)
    (List.Pairwise.filter _ (Grants.attributesFlags roles id).ordered_keys_toList)
  by_contra hn
  rw [show compare a.1 b.1 = compareOfLessAndEq a.1 b.1 from rfl, compareOfLessAndEq, if_neg hn] at h
  split at h <;> cases h

theorem mem_requestedAttributes {requested : List String} {attr : String} :
    attr ∈ requestedAttributes requested ↔
      (∃ p ∈ requested, attributeOf p = attr) ∧ attr ≠ geometryProperty := by
  simp [requestedAttributes]

/-- A list that may be asked for as it is. -/
structure Askable (roles : List Role) (id : String) (requested : List String) : Prop where
  mayAsk : ∀ p ∈ requested, MayAsk roles id (attributeOf p)
  asksAttribute : ∃ p ∈ requested, attributeOf p ≠ geometryProperty

theorem Askable.ne_nil {requested : List String} (h : Askable roles id requested) :
    requested ≠ [] := by
  intro h
  obtain rfl := h
  obtain ⟨p, hp, -⟩ := h.asksAttribute
  cases hp

namespace Check

theorem eval_selectProperties_iff {typeName : String} {requested : List String}
    {selection : Selection} :
    (selectProperties id typeName requested).eval roles = .ok selection ↔
      (Askable roles id requested ∧ selection = .requested) ∨
      (requested = [] ∧ (∃ attr, Viewable roles id attr) ∧
        selection = .narrowed (geometryProperty :: viewableNames roles id)) := by
  cases requested with
  | nil =>
    have none : ¬ Askable roles id [] := fun h => h.ne_nil rfl
    simp only [selectProperties, List.isEmpty_nil, if_true, eval_bind_iff, eval_attributesFlags,
      Except.ok.injEq, exists_eq_left', eval_require_iff, eval_pure, exists_and_left, exists_const,
      Bool.not_eq_true', List.isEmpty_eq_false_iff, none, false_and, false_or, true_and,
      ← viewableNames_ne_nil]
    exact and_congr_right fun _ => eq_comm
  | cons p requested =>
    simp only [selectProperties, List.isEmpty_cons, Bool.false_eq_true, if_false, eval_bind_iff,
      eval_forM_iff, eval_requireAttribute_iff, eval_require_iff, eval_pure, Except.ok.injEq,
      exists_and_left, exists_const, reduceCtorEq, false_and, or_false, Bool.not_eq_true',
      List.isEmpty_eq_false_iff]
    generalize p :: requested = requested
    rw [← and_assoc, eq_comm (a := Selection.requested)]
    refine and_congr_left fun _ => ⟨fun ⟨hv, ha⟩ => ⟨fun p hp => ?_, ?_⟩, fun h => ⟨?_, ?_⟩⟩
    · by_cases e : attributeOf p = geometryProperty
      · exact .inl e
      · exact .inr (hv _ (mem_requestedAttributes.2 ⟨⟨p, hp, rfl⟩, e⟩))
    · obtain ⟨attr, h⟩ := List.exists_mem_of_ne_nil _ ha
      obtain ⟨⟨p, hp, rfl⟩, e⟩ := mem_requestedAttributes.1 h
      exact ⟨p, hp, e⟩
    · intro attr h'
      obtain ⟨⟨p, hp, rfl⟩, e⟩ := mem_requestedAttributes.1 h'
      exact (h.mayAsk p hp).resolve_left e
    · obtain ⟨p, hp, e⟩ := h.asksAttribute
      exact List.ne_nil_of_mem (mem_requestedAttributes.2 ⟨⟨p, hp, rfl⟩, e⟩)

end Check

end MapGate
