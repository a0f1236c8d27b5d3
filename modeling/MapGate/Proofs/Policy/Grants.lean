import MapGate.Policy.Grants

/-!
# Permissions of several roles

A layer or an attribute carries a tag when one of the roles gives it that tag
(`has_layerFlags`, `has_attributeFlags`), and the layer ID that stands for
unknown layers carries none. The attributes that are listed for a layer are those
that some role lists (`mem_attributesFlags`), and the topics are those of all roles
(`mem_topics`).
-/

namespace MapGate

namespace Flags

theorem has_union (f g : Flags) (tag : String) : (f ∪ g).has tag = (f.has tag || g.has tag) := by
  rw [Bool.eq_iff_iff, Bool.or_eq_true, has_iff, has_iff, has_iff, mem_tags_union]

theorem has_foldl_union {l : List Flags} {f : Flags} {tag : String} :
    (l.foldl (· ∪ ·) f).has tag ↔ f.has tag ∨ ∃ g ∈ l, g.has tag := by
  induction l generalizing f with
  | nil => simp
  | cons g l ih => simp [ih, has_union, or_assoc]

end Flags

namespace Grants

variable {roles : List Role} {layer attr tag : String}

theorem has_layerFlags : (layerFlags roles layer).has tag ↔
    layer ≠ unknownLayer ∧
      ∃ role ∈ roles, ∃ flags, role.layers[layer]? = some flags ∧ flags.has tag := by
  rw [layerFlags]
  split
  · simp_all
  · rename_i h
    simp only [Flags.has_foldl_union, Flags.has_empty, Bool.false_eq_true, false_or,
      List.mem_filterMap, ne_eq, h, not_false_eq_true, true_and]
    exact ⟨fun ⟨flags, ⟨role, hr, hl⟩, ht⟩ => ⟨role, hr, flags, hl, ht⟩,
      fun ⟨role, hr, flags, hl, ht⟩ => ⟨flags, ⟨role, hr, hl⟩, ht⟩⟩

@[simp] theorem layerFlags_unknownLayer (roles : List Role) : layerFlags roles unknownLayer = ∅ :=
  if_pos rfl

@[simp] theorem attributesFlags_unknownLayer (roles : List Role) :
    attributesFlags roles unknownLayer = ∅ :=
  if_pos rfl

@[simp] theorem attributeFlags_unknownLayer (roles : List Role) (attr : String) :
    attributeFlags roles unknownLayer attr = ∅ := by
  rw [attributeFlags, attributesFlags_unknownLayer, Std.TreeMap.getD_emptyc]

theorem has_addAttribute {merged : NameMap Flags} {entry : String × Flags} :
    ((addAttribute merged entry).getD attr ∅).has tag ↔
      (merged.getD attr ∅).has tag ∨ entry.1 = attr ∧ entry.2.has tag := by
  rw [addAttribute, Std.TreeMap.getD_insert]
  by_cases h : entry.1 = attr
  · subst h; simp [Flags.has_union]
  · rw [if_neg fun e => h (Std.LawfulEqCmp.eq_of_compare e)]; simp [h]

theorem has_foldl_addAttribute {l : List (String × Flags)} {merged : NameMap Flags} :
    ((l.foldl addAttribute merged).getD attr ∅).has tag ↔
      (merged.getD attr ∅).has tag ∨ ∃ flags, (attr, flags) ∈ l ∧ flags.has tag := by
  induction l generalizing merged with
  | nil => simp
  | cons entry l ih =>
    obtain ⟨name, flags⟩ := entry
    rw [List.foldl_cons, ih, has_addAttribute, or_assoc]
    refine or_congr_right ⟨?_, ?_⟩
    · intro h
      rcases h with ⟨rfl, h⟩ | ⟨flags', hf, h⟩
      · exact ⟨flags, List.mem_cons_self, h⟩
      · exact ⟨flags', List.mem_cons_of_mem _ hf, h⟩
    · intro h
      obtain ⟨flags', hf, h⟩ := h
      rcases List.mem_cons.1 hf with e | hf
      · cases e; exact .inl ⟨rfl, h⟩
      · exact .inr ⟨flags', hf, h⟩

theorem has_addAttributes {merged attributes : NameMap Flags} :
    ((addAttributes merged attributes).getD attr ∅).has tag ↔
      (merged.getD attr ∅).has tag ∨ ∃ flags, attributes[attr]? = some flags ∧ flags.has tag := by
  simp only [addAttributes, has_foldl_addAttribute, Std.TreeMap.mem_toList_iff_getElem?_eq_some]

theorem has_foldl_addAttributes {l : List (NameMap Flags)} {merged : NameMap Flags} :
    ((l.foldl addAttributes merged).getD attr ∅).has tag ↔
      (merged.getD attr ∅).has tag ∨
        ∃ attributes ∈ l, ∃ flags, attributes[attr]? = some flags ∧ flags.has tag := by
  induction l generalizing merged with
  | nil => simp
  | cons attributes l ih => simp [ih, has_addAttributes, or_assoc]

theorem has_attributeFlags : (attributeFlags roles layer attr).has tag ↔
    layer ≠ unknownLayer ∧
      ∃ role ∈ roles, ∃ attributes flags, role.attributes[layer]? = some attributes ∧
        attributes[attr]? = some flags ∧ flags.has tag := by
  rw [attributeFlags, attributesFlags]
  split
  · simp_all
  · rename_i h
    simp only [has_foldl_addAttributes, Std.TreeMap.getD_emptyc, Flags.has_empty,
      Bool.false_eq_true, false_or, List.mem_filterMap, ne_eq, h, not_false_eq_true, true_and]
    exact ⟨fun ⟨attributes, ⟨role, hr, hl⟩, flags, ha, ht⟩ =>
        ⟨role, hr, attributes, flags, hl, ha, ht⟩,
      fun ⟨role, hr, attributes, flags, hl, ha, ht⟩ =>
        ⟨attributes, ⟨role, hr, hl⟩, flags, ha, ht⟩⟩

/-! ## Entries -/

theorem mem_addAttribute {merged : NameMap Flags} {entry : String × Flags} :
    attr ∈ addAttribute merged entry ↔ attr ∈ merged ∨ entry.1 = attr := by
  rw [addAttribute, Std.TreeMap.mem_insert, Std.LawfulEqCmp.compare_eq_iff_eq, or_comm]

theorem mem_foldl_addAttribute {l : List (String × Flags)} {merged : NameMap Flags} :
    attr ∈ l.foldl addAttribute merged ↔ attr ∈ merged ∨ attr ∈ l.map (·.1) := by
  induction l generalizing merged with
  | nil => simp
  | cons entry l ih => simp [ih, mem_addAttribute, or_assoc, eq_comm]

theorem mem_addAttributes {merged attributes : NameMap Flags} :
    attr ∈ addAttributes merged attributes ↔ attr ∈ merged ∨ attr ∈ attributes := by
  rw [addAttributes, mem_foldl_addAttribute, Std.TreeMap.map_fst_toList_eq_keys,
    Std.TreeMap.mem_keys]

theorem mem_foldl_addAttributes {l : List (NameMap Flags)} {merged : NameMap Flags} :
    attr ∈ l.foldl addAttributes merged ↔ attr ∈ merged ∨ ∃ attributes ∈ l, attr ∈ attributes := by
  induction l generalizing merged with
  | nil => simp
  | cons attributes l ih => simp [ih, mem_addAttributes, or_assoc]

/-- An attribute has flags, if only an empty set of them, exactly if one of the roles
says something about it. -/
theorem mem_attributesFlags : attr ∈ attributesFlags roles layer ↔
    layer ≠ unknownLayer ∧
      ∃ role ∈ roles, ∃ attributes, role.attributes[layer]? = some attributes ∧
        attr ∈ attributes := by
  rw [attributesFlags]
  split
  · simp_all
  · rename_i h
    simp only [mem_foldl_addAttributes, Std.TreeMap.not_mem_emptyc, false_or, List.mem_filterMap,
      ne_eq, h, not_false_eq_true, true_and]
    exact ⟨fun ⟨attributes, ⟨role, hr, hl⟩, ha⟩ => ⟨role, hr, attributes, hl, ha⟩,
      fun ⟨role, hr, attributes, hl, ha⟩ => ⟨attributes, ⟨role, hr, hl⟩, ha⟩⟩

theorem mem_foldl_insert {l : List String} {names : NameSet} {name : String} :
    name ∈ l.foldl (·.insert ·) names ↔ name ∈ names ∨ name ∈ l := by
  induction l generalizing names with
  | nil => simp
  | cons first l ih =>
    rw [List.foldl_cons, ih, Std.TreeSet.mem_insert, Std.LawfulEqCmp.compare_eq_iff_eq,
      List.mem_cons, or_assoc, or_left_comm, @eq_comm _ first]

/-- The topics are those of any of the roles. -/
theorem mem_topics {topic : String} :
    topic ∈ topics roles ↔ ∃ role ∈ roles, topic ∈ role.topics := by
  simp only [topics, mem_foldl_insert, Std.TreeSet.not_mem_emptyc, false_or, List.mem_flatMap,
    Std.TreeSet.mem_toList]

end Grants

end MapGate
