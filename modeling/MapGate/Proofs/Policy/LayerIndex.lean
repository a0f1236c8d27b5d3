import MapGate.Policy.LayerIndex

/-!
# What a published name leads to

The index is built layer by layer, and after each of them a name leads where the
layers so far that are published under it say (`Follows`): to the only one of
them, or, when there are several, to no layer. An ID is therefore what a name
resolves to exactly if its layer is the only one published under the local part
of the name (`resolve_ofLayers_iff`).
-/

namespace MapGate

/-- The layer with an ID is published, and under the given name. -/
def Publishes (layers : NameMap LayerSettings) (id name : String) : Prop :=
  ∃ layer, layers[id]? = some layer ∧ layer.isExcluded = false ∧ layer.name = name

/-- The layer with an ID is published under a name, and no other layer is. -/
structure PublishesAlone (layers : NameMap LayerSettings) (id name : String) : Prop where
  published : Publishes layers id name
  alone : ∀ other, Publishes layers other name → other = id

namespace LayerIndex

variable {index : LayerIndex} {entries rest : List (String × LayerSettings)}
  {layers : NameMap LayerSettings} {id name : String}

/-- The IDs of the layers in a list that are published under a name. -/
def idsNamed (entries : List (String × LayerSettings)) (name : String) : List String :=
  (entries.filter fun entry => !entry.2.isExcluded && entry.2.name == name).map (·.1)

/-- Where a name leads under which the layers with the given IDs are published. -/
def lead : List String → Option String
  | [] => none
  | [id] => some id
  | _ :: _ :: _ => some unknownLayer

/-- Each name leads where the layers of a list say. -/
def Follows (index : LayerIndex) (entries : List (String × LayerSettings)) : Prop :=
  ∀ name, index.byName[name]? = lead (idsNamed entries name)

/-! ## Layer by layer -/

theorem getElem?_publish (index : LayerIndex) (id : String) (layer : LayerSettings) (name : String) :
    (index.publish id layer).byName[name]? =
      if layer.isExcluded = false ∧ layer.name = name then
        some (if index.byName[name]?.isSome then unknownLayer else id)
      else index.byName[name]? := by
  cases he : layer.isExcluded with
  | true => simp [publish, he]
  | false =>
    have taken : (index.publish id layer).byName = index.byName.insert layer.name
        (if index.byName[layer.name]?.isSome then unknownLayer else id) := by
      rw [publish, he, if_neg Bool.false_ne_true, Std.TreeMap.contains_eq_isSome_getElem?]
      split <;> rfl
    rw [taken, Std.TreeMap.getElem?_insert]
    by_cases h : layer.name = name
    · subst h; simp
    · rw [if_neg fun e => h (Std.LawfulEqCmp.eq_of_compare e), if_neg fun e => h e.2]

/-- One layer more among those that a name leads to. -/
theorem lead_concat (ids : List String) (id : String) :
    lead (ids ++ [id]) = some (if (lead ids).isSome then unknownLayer else id) := by
  match ids with
  | [] => rfl
  | [_] => rfl
  | _ :: _ :: _ => rfl

theorem idsNamed_concat (entries : List (String × LayerSettings)) (id : String)
    (layer : LayerSettings) (name : String) :
    idsNamed (entries ++ [(id, layer)]) name =
      if layer.isExcluded = false ∧ layer.name = name then idsNamed entries name ++ [id]
      else idsNamed entries name := by
  rw [idsNamed, List.filter_append, List.map_append, ← idsNamed]
  by_cases h : layer.isExcluded = false ∧ layer.name = name <;> simp_all

theorem Follows.publish (h : index.Follows entries) (id : String) (layer : LayerSettings) :
    (index.publish id layer).Follows (entries ++ [(id, layer)]) := by
  intro name
  rw [getElem?_publish, idsNamed_concat, h name]
  split
  · rw [lead_concat]
  · rfl

theorem Follows.foldl (h : index.Follows entries) :
    (rest.foldl (fun index entry => index.publish entry.1 entry.2) index).Follows
      (entries ++ rest) := by
  induction rest generalizing index entries with
  | nil => simpa using h
  | cons entry rest ih =>
    rw [List.foldl_cons, ← List.singleton_append, ← List.append_assoc]
    exact ih (h.publish entry.1 entry.2)

theorem follows_ofLayers (layers : NameMap LayerSettings) :
    (ofLayers layers).Follows layers.toList := by
  have start : empty.Follows [] := fun name => by simp [empty, idsNamed, lead]
  exact start.foldl

/-! ## What a name resolves to -/

theorem mem_idsNamed : id ∈ idsNamed layers.toList name ↔ Publishes layers id name := by
  simp only [idsNamed, List.mem_map, List.mem_filter, Prod.exists, exists_and_right,
    Std.TreeMap.mem_toList_iff_getElem?_eq_some, Bool.and_eq_true, Bool.not_eq_true', beq_iff_eq,
    exists_eq_right, Publishes]

theorem nodup_idsNamed (layers : NameMap LayerSettings) (name : String) :
    (idsNamed layers.toList name).Nodup := by
  refine List.Pairwise.map _ (fun a b h e => h ?_) (List.Pairwise.filter _
    layers.distinct_keys_toList)
  rw [e]
  exact Std.ReflCmp.compare_self

theorem idsNamed_eq_singleton_iff :
    idsNamed layers.toList name = [id] ↔ PublishesAlone layers id name := by
  constructor
  · intro h
    exact ⟨mem_idsNamed.1 (h ▸ List.mem_singleton_self id),
      fun other ho => List.mem_singleton.1 (h ▸ mem_idsNamed.2 ho)⟩
  · intro h
    have nodup := nodup_idsNamed layers name
    have mem := mem_idsNamed.2 h.published
    have only : ∀ other ∈ idsNamed layers.toList name, other = id := fun other ho =>
      h.alone other (mem_idsNamed.1 ho)
    rw [List.eq_replicate_of_mem only] at nodup mem ⊢
    have : (idsNamed layers.toList name).length ≤ 1 := List.nodup_replicate.1 nodup
    have : (idsNamed layers.toList name).length ≠ 0 := (List.mem_replicate.1 mem).1
    rw [show (idsNamed layers.toList name).length = 1 by omega, List.replicate_one]

theorem resolve_ofLayers (layers : NameMap LayerSettings) (name : String) :
    (ofLayers layers).resolve name =
      (lead (idsNamed layers.toList (Text.localName name))).getD unknownLayer := by
  rw [resolve, Std.TreeMap.getD_eq_getD_getElem?, follows_ofLayers]

/-- A name resolves to a layer exactly if no other layer is published under its
local part. -/
theorem resolve_ofLayers_iff (h : id ≠ unknownLayer) :
    (ofLayers layers).resolve name = id ↔ PublishesAlone layers id (Text.localName name) := by
  rw [resolve_ofLayers, ← idsNamed_eq_singleton_iff]
  match idsNamed layers.toList (Text.localName name) with
  | [] => simp [lead, h.symm]
  | [_] => simp [lead]
  | _ :: _ :: _ => simp [lead, h.symm]

end LayerIndex

end MapGate
