import MapGate.Policy.PermissionContext
import MapGate.Proofs.Gate.PropertyLists
import MapGate.Proofs.Gate.Selection
import MapGate.Proofs.Ows.Params

/-!
# Feature queries in parameters

When a feature query in parameters is accepted, and what becomes of it
(`eval_getFeatureParams_iff`): each type name must be one that may be queried,
with a list that may be asked for, or none while there are attributes to give.

What is forwarded is read by the renderer, in the same grammar. The layers stay
the same, and a list that the client wrote is read as it was, but the names of
attributes are not written in a way that keeps them apart: a comma in a name
makes two of one. `rereadList_viewable_iff` says for which names this does not
matter (`NamesSurvive`).
-/

namespace MapGate.FeatureQuery

variable {roles : List Role} {index : LayerIndex} {params params' : Params} {narrowed : Bool}

/-- The type names with their lists of properties, as the parameters are read. -/
def Reads (params : Params) (entries : List (String × List String)) : Prop :=
  ∃ groups, propertyGroups (params.get? "PROPERTYNAME") (typeNames params).length = .ok groups ∧
    entries = (typeNames params).zip groups

/-- A type name with its list of properties that is accepted. -/
structure ListAccepted (roles : List Role) (index : LayerIndex) (entry : String × List String) :
    Prop where
  layer : PermitsLayer roles (index.resolve entry.1) .query
  list : Askable roles (index.resolve entry.1) entry.2 ∨
    entry.2 = [] ∧ ∃ attr, Viewable roles (index.resolve entry.1) attr

/-- What an accepted type name is to ask for. -/
def listSelection (roles : List Role) (index : LayerIndex) (entry : String × List String) :
    Selection :=
  if entry.2.isEmpty then .narrowed (geometryProperty :: viewableNames roles (index.resolve entry.1))
  else .requested

/-- The properties that an accepted type name asks for in the end. -/
def forwardedList (roles : List Role) (index : LayerIndex) (entry : String × List String) :
    List String :=
  (listSelection roles index entry).properties entry.2

/-- The parameters with which an accepted query is forwarded. -/
def forwardedParams (roles : List Role) (index : LayerIndex) (params : Params)
    (entries : List (String × List String)) : Params :=
  if entries.any (·.2.isEmpty) then
    params.set "PROPERTYNAME" (renderGroups (entries.map (forwardedList roles index)))
  else params

theorem isNarrowed_listSelection (entry : String × List String) :
    (listSelection roles index entry).isNarrowed = entry.2.isEmpty := by
  rw [listSelection]
  split <;> simp_all [Selection.isNarrowed]

theorem eval_featureGroup_iff {entry : String × List String} {selection : Selection} :
    (Check.featureGroup index entry.1 entry.2).eval roles = .ok selection ↔
      ListAccepted roles index entry ∧ selection = listSelection roles index entry := by
  have split : ListAccepted roles index entry ↔ _ ∧ _ := ⟨fun h => ⟨h.layer, h.list⟩, fun h => ⟨h.1, h.2⟩⟩
  simp only [Check.featureGroup, Check.eval_bind_iff, Check.eval_requireLayer_iff,
    Check.eval_selectProperties_iff, split, and_assoc, exists_and_left, exists_eq_left]
  refine and_congr_right fun _ => ?_
  by_cases h : entry.2 = []
  · have none : ¬ Askable roles (index.resolve entry.1) [] := fun h => h.ne_nil rfl
    simp [h, none, listSelection]
  · simp [h, listSelection]

theorem eval_getFeatureParams_iff :
    (Check.getFeatureParams index params).eval roles = .ok (params', narrowed) ↔
      typeNames params ≠ [] ∧
      ∃ entries, Reads params entries ∧ (∀ entry ∈ entries, ListAccepted roles index entry) ∧
        params' = forwardedParams roles index params entries ∧
        narrowed = entries.any (·.2.isEmpty) := by
  have each : ∀ (entry : String × List String) (b : List String × Selection),
      (do return (entry.2, ← Check.featureGroup index entry.1 entry.2) : Check _).eval roles = .ok b ↔
        ListAccepted roles index entry ∧ b = (entry.2, listSelection roles index entry) :=
    fun entry b => by
      simp only [Check.eval_bind_iff, Check.eval_pure, eval_featureGroup_iff, Except.ok.injEq]
      exact ⟨fun ⟨_, ⟨h, e⟩, e'⟩ => ⟨h, by rw [← e', e]⟩, fun ⟨h, e⟩ => ⟨_, ⟨h, rfl⟩, e.symm⟩⟩
  simp only [Check.getFeatureParams, Check.eval_bind_iff, Check.eval_require_iff, exists_const,
    Check.eval_ofExcept, mapError_eq_ok_iff, Bool.not_eq_true', List.isEmpty_eq_false_iff,
    Check.eval_mapM_iff_map each, and_assoc, exists_and_left, exists_eq_left, Reads,
    ← exists_and_right, exists_comm (α := List (String × List String))]
  refine and_congr_right fun _ => exists_congr fun groups => and_congr_right fun _ =>
    and_congr_right fun _ => ?_
  rw [forwardedParams]
  simp only [List.any_map, List.map_map, Function.comp_def, isNarrowed_listSelection]
  split <;>
  · rename_i h
    rw [Check.eval_pure, Except.ok.injEq, Prod.mk.injEq]
    simp only [h]
    exact and_congr eq_comm eq_comm

/-! ## Reading back what is forwarded -/

section

variable {entry : String × List String} {groups : List (List String)} {value? : Option String}
  {count : Nat}

theorem forwardedList_of_nil (h : entry.2 = []) : forwardedList roles index entry =
    geometryProperty :: viewableNames roles (index.resolve entry.1) := by
  rw [forwardedList, listSelection, h]; rfl

theorem forwardedList_of_ne_nil (h : entry.2 ≠ []) : forwardedList roles index entry = entry.2 := by
  rw [forwardedList, listSelection, if_neg (by simpa using h)]; rfl

theorem forwardedList_ne_nil (entry : String × List String) : forwardedList roles index entry ≠ [] := by
  by_cases h : entry.2 = []
  · rw [forwardedList_of_nil h]
    exact List.cons_ne_nil _ _
  · rwa [forwardedList_of_ne_nil h]

/-- The properties that a forwarded list is read back as. -/
def rereadList (roles : List Role) (index : LayerIndex) (entry : String × List String) :
    List String :=
  (forwardedList roles index entry).flatMap Text.entries

theorem mem_rereadList_of_nil (h : entry.2 = []) {p : String} :
    p ∈ rereadList roles index entry ↔ p = geometryProperty ∨
      ∃ attr, Viewable roles (index.resolve entry.1) attr ∧ p ∈ Text.entries attr := by
  have geometry : Text.entries geometryProperty = [geometryProperty] := by decide
  simp only [rereadList, forwardedList_of_nil h, List.flatMap_cons, geometry, List.mem_append,
    List.mem_singleton, List.mem_flatMap, mem_viewableNames]

end

theorem Reads.map_fst {entries : List (String × List String)} (h : Reads params entries) :
    entries.map (·.1) = typeNames params := by
  obtain ⟨groups, hg, rfl⟩ := h
  exact List.map_fst_zip (length_of_propertyGroups hg).ge

theorem Reads.length {entries : List (String × List String)} (h : Reads params entries) :
    entries.length = (typeNames params).length := by
  rw [← h.map_fst, List.length_map]

theorem Reads.unique {entries entries' : List (String × List String)} (h : Reads params entries)
    (h' : Reads params entries') : entries = entries' := by
  obtain ⟨groups, hg, rfl⟩ := h
  obtain ⟨groups', hg', rfl⟩ := h'
  rw [Except.ok.inj (hg.symm.trans hg')]

theorem reads_zip_iff {groups : List (List String)} (hl : groups.length = (typeNames params).length) :
    Reads params ((typeNames params).zip groups) ↔
      propertyGroups (params.get? "PROPERTYNAME") (typeNames params).length = .ok groups := by
  refine ⟨fun h => ?_, fun h => ⟨groups, h, rfl⟩⟩
  obtain ⟨groups', hg, e⟩ := h
  have snd := congrArg (List.map Prod.snd) e
  rw [List.map_snd_zip hl.le, List.map_snd_zip (length_of_propertyGroups hg).le] at snd
  rwa [snd]

theorem Reads.attributeOf {entries : List (String × List String)} (hr : Reads params entries)
    {entry : String × List String} (he : entry ∈ entries) {p : String} (hp : p ∈ entry.2) :
    MapGate.attributeOf p = Text.localName p := by
  obtain ⟨groups, hg, rfl⟩ := hr
  obtain ⟨list, hl, -⟩ := exists_of_mem_propertyGroups hg (List.of_mem_zip he).2 hp
  rw [MapGate.attributeOf, (Text.of_mem_entries hl).1]

/-- A list that the client wrote is read back as it was read, and nothing in it
looks like the end of one list and the start of the next. -/
theorem Reads.requested (roles : List Role) (index : LayerIndex)
    {entries : List (String × List String)} (hr : Reads params entries)
    {entry : String × List String} (he : entry ∈ entries) (h : entry.2 ≠ []) :
    rereadList roles index entry = entry.2 ∧
      (1 < entries.length → ∀ name ∈ forwardedList roles index entry,
        ¬ [')', '('] <:+: name.toList) := by
  have count := hr.length
  obtain ⟨groups, hg, rfl⟩ := hr
  have mem : entry.2 ∈ groups := (List.of_mem_zip he).2
  rw [rereadList, forwardedList_of_ne_nil h]
  refine ⟨Text.flatMap_entries_eq_self fun p hp => ?_, fun hc name hn hi => ?_⟩
  · obtain ⟨list, hl, -⟩ := exists_of_mem_propertyGroups hg mem hp
    exact Text.entries_of_mem_entries hl
  · obtain ⟨list, hl, hi'⟩ := exists_of_mem_propertyGroups hg mem hn
    exact hi' (count ▸ hc) (hi.trans (Text.of_mem_entries hl).2.2.2)

theorem typeNames_set_propertyName (value : String) :
    typeNames (params.set "PROPERTYNAME" value) = typeNames params := by
  rw [typeNames, Params.get?_set_of_ne (by decide), Params.get?_set_of_ne (by decide), typeNames]

theorem get?_forwardedParams {entries : List (String × List String)} {name : String}
    (h : Text.sameName "PROPERTYNAME" name = false) :
    (forwardedParams roles index params entries).get? name = params.get? name := by
  rw [forwardedParams]
  split
  · exact Params.get?_set_of_ne h
  · rfl

theorem typeNames_forwardedParams (entries : List (String × List String)) :
    typeNames (forwardedParams roles index params entries) = typeNames params := by
  rw [typeNames, get?_forwardedParams (by decide), get?_forwardedParams (by decide), typeNames]

/-- The forwarded parameters name the same layers, and are read back list by
list. They can be read unless a name among several lists looks like the end of
one and the start of the next. -/
theorem reads_forwardedParams_iff {entries entries' : List (String × List String)}
    (h : Reads params entries) (hne : typeNames params ≠ []) :
    Reads (forwardedParams roles index params entries) entries' ↔
      (1 < entries.length → ∀ entry ∈ entries, ∀ name ∈ forwardedList roles index entry,
        ¬ [')', '('] <:+: name.toList) ∧
      entries' = entries.map fun entry => (entry.1, rereadList roles index entry) := by
  have names := h.map_fst
  have count := h.length
  cases he : entries.any (·.2.isEmpty) with
  | true =>
    have hlists : entries.map (forwardedList roles index) ≠ [] := by
      rw [← List.length_pos_iff, List.length_map, count]
      exact List.length_pos_iff.2 hne
    have single : ∀ list, entries.map (forwardedList roles index) = [list] →
        ∃ names, list = geometryProperty :: names := fun list e => by
      obtain ⟨entry, rfl, rfl⟩ := List.map_eq_singleton_iff.1 e
      exact ⟨_, forwardedList_of_nil (by simpa using he)⟩
    have read := fun groups => @propertyGroups_iff _ groups hlists single
    rw [List.length_map, List.forall_mem_map] at read
    rw [forwardedParams, if_pos he, Reads, Params.get?_set_self, typeNames_set_propertyName, ← count]
    simp only [read, List.map_map, and_assoc, exists_and_left, exists_eq_left, ← names,
      List.zip_map']
    rfl
  | false =>
    have listed : ∀ entry ∈ entries, entry.2 ≠ [] := fun entry hm => by
      simpa using List.any_eq_false.1 he entry hm
    have same : entries.map (fun entry => (entry.1, rereadList roles index entry)) = entries := by
      conv_rhs => rw [← List.map_id entries]
      exact List.map_congr_left fun entry hm =>
        Prod.ext rfl (h.requested _ _ hm (listed entry hm)).1
    rw [and_iff_right fun hc entry hm => (h.requested _ _ hm (listed entry hm)).2 hc, same,
      forwardedParams, if_neg (by simp [he])]
    exact ⟨fun h' => h'.unique h, fun e => e ▸ h⟩

/-! ## What the forwarded lists say -/

/-- Read back, the parameters give each type name a list of properties that may
all be asked for, with at least one in it. -/
def ListsViewable (roles : List Role) (index : LayerIndex) (params : Params) : Prop :=
  ∃ groups, propertyGroups (params.get? "PROPERTYNAME") (typeNames params).length = .ok groups ∧
    List.Forall₂ (fun typeName group => group ≠ [] ∧
      ∀ p ∈ group, MayAsk roles (index.resolve typeName) (Text.localName p))
      (typeNames params) groups

/-- The type name comes without a list of properties. -/
def Unlisted (params : Params) (typeName : String) : Prop :=
  ∃ entries, Reads params entries ∧ (typeName, []) ∈ entries

theorem Reads.unlisted_iff {entries : List (String × List String)} (h : Reads params entries)
    {typeName : String} : Unlisted params typeName ↔ (typeName, []) ∈ entries :=
  ⟨fun ⟨_, h', hm⟩ => h'.unique h ▸ hm, fun hm => ⟨entries, h, hm⟩⟩

/-- The attributes that may be viewed keep their meaning in a list: all entries
that a comma list has because of them may be asked for, and among several lists
none of them looks like the end of one and the start of the next. -/
def NamesSurvive (roles : List Role) (id : String) (several : Prop) : Prop :=
  ∀ attr, Viewable roles id attr →
    (∀ entry ∈ Text.entries attr, MayAsk roles id (Text.localName entry)) ∧
    (several → ¬ [')', '('] <:+: attr.toList)

theorem listsViewable_iff_reads : ListsViewable roles index params ↔
    ∃ entries, Reads params entries ∧ ∀ entry ∈ entries, entry.2 ≠ [] ∧
      ∀ p ∈ entry.2, MayAsk roles (index.resolve entry.1) (Text.localName p) := by
  simp only [ListsViewable, Reads, List.forall₂_iff_zip]
  constructor
  · intro h
    obtain ⟨groups, hg, -, h⟩ := h
    exact ⟨_, ⟨groups, hg, rfl⟩, fun entry he => h he⟩
  · intro h
    obtain ⟨_, ⟨groups, hg, rfl⟩, h⟩ := h
    exact ⟨groups, hg, (length_of_propertyGroups hg).symm, fun {typeName group} he => h _ he⟩

/-- A list that was made up is read back as viewable names if they survive. -/
theorem rereadList_viewable_iff {entry : String × List String} (h : entry.2 = []) {several : Prop} :
    (several → ∀ name ∈ forwardedList roles index entry, ¬ [')', '('] <:+: name.toList) ∧
      (rereadList roles index entry ≠ [] ∧ ∀ p ∈ rereadList roles index entry,
        MayAsk roles (index.resolve entry.1) (Text.localName p)) ↔
      NamesSurvive roles (index.resolve entry.1) several := by
  have geometry : geometryProperty ∈ rereadList roles index entry :=
    (mem_rereadList_of_nil h).2 (.inl rfl)
  have plain : ¬ [')', '('] <:+: geometryProperty.toList := fun hi =>
    absurd (hi.subset List.mem_cons_self) (by decide)
  have mayAsk : MayAsk roles (index.resolve entry.1) (Text.localName geometryProperty) :=
    .inl (Text.localName_of_colon_notMem (by decide))
  rw [and_iff_right (List.ne_nil_of_mem geometry), forwardedList_of_nil h, List.forall_mem_cons,
    and_iff_right plain]
  constructor
  · intro h attr ha
    obtain ⟨hn, hm⟩ := h
    exact ⟨fun e he => hm e ((mem_rereadList_of_nil h).2 (.inr ⟨attr, ha, he⟩)),
      fun hs => hn hs attr (mem_viewableNames.2 ha)⟩
  · intro hs
    refine ⟨fun several attr ha => (hs attr (mem_viewableNames.1 ha)).2 several, fun p hp => ?_⟩
    rcases (mem_rereadList_of_nil h).1 hp with rfl | ⟨attr, ha, he⟩
    · exact mayAsk
    · exact (hs attr ha).1 p he

/-- The lists of an accepted query are forwarded as lists of viewable properties
exactly if the names survive that type names without a list are given. -/
theorem listsViewable_iff
    (accepted : (Check.getFeatureParams index params).eval roles = .ok (params', narrowed)) :
    ListsViewable roles index params' ↔
      ∀ typeName, Unlisted params typeName →
        NamesSurvive roles (index.resolve typeName) (1 < (typeNames params).length) := by
  obtain ⟨hne, entries, hr, ha, rfl, -⟩ := eval_getFeatureParams_iff.1 accepted
  have each : ∀ entry ∈ entries,
      (1 < entries.length → ∀ name ∈ forwardedList roles index entry, ¬ [')', '('] <:+: name.toList) ∧
        (rereadList roles index entry ≠ [] ∧ ∀ p ∈ rereadList roles index entry,
          MayAsk roles (index.resolve entry.1) (Text.localName p)) ↔
      (entry.2 = [] → NamesSurvive roles (index.resolve entry.1) (1 < entries.length)) :=
    fun entry he => by
      by_cases h : entry.2 = []
      · rw [rereadList_viewable_iff h]
        simp [h]
      · obtain ⟨reread, hi⟩ := hr.requested roles index he h
        have askable := (ha entry he).list.resolve_right (h ·.1)
        rw [reread]
        exact ⟨fun _ h' => absurd h' h, fun _ => ⟨hi, h, fun p hp =>
          hr.attributeOf he hp ▸ askable.mayAsk p hp⟩⟩
  simp only [listsViewable_iff_reads, reads_forwardedParams_iff hr hne, hr.unlisted_iff, and_assoc,
    exists_and_left, exists_eq_left, List.forall_mem_map, ← hr.length]
  constructor
  · intro h typeName hm
    obtain ⟨hi, hv⟩ := h
    exact (each _ hm).1 ⟨fun hc => hi hc _ hm, hv _ hm⟩ rfl
  · intro hs
    have survive : ∀ entry ∈ entries, entry.2 = [] →
        NamesSurvive roles (index.resolve entry.1) (1 < entries.length) :=
      fun entry hm h => hs entry.1 (h ▸ hm)
    exact ⟨fun hc entry hm => ((each entry hm).2 (survive entry hm)).1 hc,
      fun entry hm => ((each entry hm).2 (survive entry hm)).2⟩

/-- The settings of a project with one layer, on which everyone may view one
attribute and nothing else. -/
def oneAttribute (attr : String) : ProjectSettings where
  projectFile := "city.qgs"
  access := .closed
  layers := (∅ : NameMap LayerSettings).insert "r" ⟨"roads", ∅⟩
  roles := [⟨"staff", .everyone, ∅, (∅ : NameMap Flags).insert "r" (.ofList ["view", "query"]),
    (∅ : NameMap (NameMap Flags)).insert "r" ((∅ : NameMap Flags).insert attr (.ofList ["view"])), ∅⟩]

theorem eq_of_viewable_oneAttribute {attr id other : String}
    (h : Viewable (oneAttribute attr).roles id other) : other = attr := by
  obtain ⟨-, -, role, hr, attributes, flags, ha, hf, -⟩ := h
  obtain rfl := List.mem_singleton.1 hr
  simp only [Std.TreeMap.getElem?_insert, Std.TreeMap.getElem?_emptyc,
    Option.ite_none_right_eq_some, Option.some.injEq] at ha
  obtain ⟨-, rfl⟩ := ha
  simp only [Std.TreeMap.getElem?_insert, Std.TreeMap.getElem?_emptyc,
    Option.ite_none_right_eq_some] at hf
  exact (Std.LawfulEqCmp.eq_of_compare hf.1).symm

theorem listsViewable_name :
    (Check.getFeatureParams (.ofLayers (oneAttribute "name").layers) ⟨[("TYPENAME", "roads")]⟩).eval
        (oneAttribute "name").roles =
      .ok (⟨[("TYPENAME", "roads"), ("PROPERTYNAME", "geometry,name")]⟩, true) ∧
    ListsViewable (oneAttribute "name").roles (.ofLayers (oneAttribute "name").layers)
      ⟨[("TYPENAME", "roads"), ("PROPERTYNAME", "geometry,name")]⟩ := by
  have accepted : (Check.getFeatureParams (.ofLayers (oneAttribute "name").layers)
      ⟨[("TYPENAME", "roads")]⟩).eval (oneAttribute "name").roles =
      .ok (⟨[("TYPENAME", "roads"), ("PROPERTYNAME", "geometry,name")]⟩, true) := rfl
  refine ⟨accepted, (listsViewable_iff accepted).2 ?_⟩
  intro typeName _ attr ha
  obtain rfl := eq_of_viewable_oneAttribute ha
  have entries : Text.entries "name" = ["name"] := by decide
  rw [entries]
  refine ⟨fun entry he => ?_, fun hc => absurd hc (by decide)⟩
  rw [List.mem_singleton.1 he, Text.localName_of_colon_notMem (by decide)]
  exact .inr ha.2

/-- A comma in the name of an attribute: the one attribute that may be viewed is
forwarded as two that may not. -/
theorem not_listsViewable_comma :
    let settings := oneAttribute "name,owner"
    let roles := applicableRoles .anonymous settings.roles
    let forwarded : Params := ⟨[("TYPENAME", "roads"), ("PROPERTYNAME", "geometry,name,owner")]⟩
    settings.validate = .ok settings ∧
      (Check.getFeatureParams (.ofLayers settings.layers) ⟨[("TYPENAME", "roads")]⟩).eval roles =
        .ok (forwarded, true) ∧
      ¬ ListsViewable roles (.ofLayers settings.layers) forwarded := by
  refine ⟨rfl, rfl, fun h => ?_⟩
  obtain ⟨groups, hg, h⟩ := h
  obtain rfl : [["geometry", "name", "owner"]] = groups := Except.ok.inj hg
  obtain ⟨-, h⟩ := (List.forall₂_cons.1 h).1
  rcases h "owner" (by simp) with h | h
  · exact absurd h (by decide)
  · exact absurd (has_attributeFlags_iff.2 h) (Bool.eq_false_iff.1 rfl)

end MapGate.FeatureQuery
