import MapGate.Proofs.Gate.FeatureParams

/-!
# The grammar of a feature query in parameters

`NamesTypes` and `ListsProperties` say how type names and lists of properties are
written, without saying how they are read. What is read is what was written
(`typeNames_eq_iff`, `propertyGroups_eq_ok_iff`), and there is one list for each
type name, at its own place (`reads_iff`). `getFeatureParams_exact` says on these
grounds which queries are accepted, and what becomes of their parameters.
-/

namespace MapGate.FeatureQuery

variable {roles : List Role} {index : LayerIndex} {params params' : Params} {narrowed : Bool}
  {value? : Option String} {count : Nat} {names : List String} {groups : List (List String)}

/-- The type names of a query: the entries of the first `TYPENAMES`, or of the
first `TYPENAME` where there is none, unless there are no entries. -/
def NamesTypes (params : Params) (names : List String) : Prop :=
  ∃ list, (params.FirstValue "TYPENAMES" list ∨
      params.Lacks "TYPENAMES" ∧ params.FirstValue "TYPENAME" list) ∧
    names = Text.entries list ∧ names ≠ []

/-- The ways to list properties for a number of type names. -/
inductive ListsProperties : Option String → Nat → List (List String) → Prop
  /-- Without a value, nothing is asked for of any type. -/
  | absent {count : Nat} : ListsProperties none count (List.replicate count [])
  | blank {value : String} {count : Nat} (blank : Text.trim value = "") :
    ListsProperties (some value) count (List.replicate count [])
  /-- A plain list is for a single type. -/
  | plain {value : String} (nonblank : Text.trim value ≠ "")
      (unopened : (Text.trim value).toList.head? ≠ some '(') :
    ListsProperties (some value) 1 [Text.entries value]
  /-- Lists for each type stand in one pair of parentheses, with `)(` between them. -/
  | grouped {value : String} {lists : List String} (ne_nil : lists ≠ [])
      (written : Text.trim value = "(" ++ ")(".intercalate lists ++ ")")
      (apart : ∀ list ∈ lists, ¬ ")(".toList <:+: list.toList) :
    ListsProperties (some value) lists.length (lists.map Text.entries)

/-! ## Type names -/

theorem typeNames_eq_iff : typeNames params = names ∧ names ≠ [] ↔ NamesTypes params names := by
  simp only [typeNames, NamesTypes, ← Params.get?_eq_some_iff, ← Params.get?_eq_none_iff]
  cases params.get? "TYPENAMES" with
  | some list => simp [eq_comm]
  | none =>
    cases params.get? "TYPENAME" with
    | some list => simp [eq_comm]
    | none => simp

/-! ## Lists of properties -/

theorem insideParentheses?_eq_some_iff {l inside : List Char} :
    insideParentheses? l = some inside ↔ l = '(' :: inside ++ [')'] := by
  constructor
  · intro h
    unfold insideParentheses? at h
    split at h
    · split at h
      · rename_i hl
        obtain ⟨front, rfl⟩ := List.getLast?_eq_some_iff.1 hl
        rw [List.dropLast_concat] at h
        cases h
        rfl
      · cases h
    · cases h
  · intro h
    obtain rfl := h
    simp [insideParentheses?]

/-- The pieces of a text between the separators of two lists. -/
theorem splitOnText_eq_iff {s : String} {lists : List String} :
    Text.splitOnText ")(" s = lists ↔
      lists ≠ [] ∧ s = ")(".intercalate lists ∧ ∀ list ∈ lists, ¬ ")(".toList <:+: list.toList := by
  have cut := @Text.splitCharsFrom_eq_iff ')' '(' (by decide) s.toList (lists.map String.toList)
  rw [← String.toList_inj, String.toList_intercalate, show ")(".toList = [')', '('] from rfl,
    Text.splitOnText, show ")(".toList = [')', '('] from rfl]
  rw [List.forall_mem_map, ne_eq, List.map_eq_nil_iff] at cut
  rw [← cut]
  constructor
  · intro h
    obtain rfl := h
    simp
  · intro h
    rw [h]
    simp

theorem propertyGroups_trim (value : String) (count : Nat) :
    propertyGroups (some (Text.trim value)) count = propertyGroups (some value) count := by
  simp only [propertyGroups, Option.getD_some, Text.toList_trim, Text.trimChars_trimChars]

theorem listsProperties_of_propertyGroups (h : propertyGroups value? count = .ok groups) :
    ListsProperties value? count groups := by
  cases value? with
  | none => cases h; exact .absent
  | some value =>
    simp only [propertyGroups, Option.getD_some, ← Text.toList_trim] at h
    split at h
    · rename_i e
      cases h
      exact .blank (String.toList_eq_nil_iff.1 e)
    · split at h
      · cases h
      · rename_i inside e
        split at h
        · rename_i hc
          cases h
          obtain ⟨hne, hs, ha⟩ := splitOnText_eq_iff.1 (rfl : Text.splitOnText ")(" (.ofList inside) = _)
          rw [List.length_map] at hc
          obtain rfl := hc
          refine .grouped hne ?_ ha
          rw [← hs, String.ext_iff, insideParentheses?_eq_some_iff.1 e]
          simp
        · cases h
    · rename_i hblank hopen
      split at h
      · rename_i hc
        obtain rfl := hc
        cases h
        rw [Text.toList_trim, Text.entries_trimChars, String.ofList_toList]
        refine .plain (fun e => hblank (by rw [e]; rfl)) fun e => ?_
        obtain ⟨rest, e⟩ := List.head?_eq_some_iff.1 e
        exact hopen rest e
      · cases h

theorem propertyGroups_of_listsProperties (h : ListsProperties value? count groups) :
    propertyGroups value? count = .ok groups := by
  cases h with
  | absent => rfl
  | blank blank => rw [← propertyGroups_trim, blank]; rfl
  | @plain value nonblank unopened =>
    have read : Text.entries (String.ofList (Text.trim value).toList) = Text.entries value := by
      rw [Text.toList_trim, Text.entries_trimChars, String.ofList_toList]
    simp only [propertyGroups, Option.getD_some, ← Text.toList_trim]
    split
    · rename_i e
      exact absurd (String.toList_eq_nil_iff.1 e) nonblank
    · rename_i e
      exact absurd (by rw [e]; rfl) unopened
    · rw [if_true, read]
  | @grouped value lists ne_nil written apart =>
    have inside : Text.trim value = String.ofList
        ('(' :: (")(".intercalate lists).toList ++ [')']) := by
      rw [written, String.ext_iff]
      simp
    rw [← propertyGroups_trim, inside, propertyGroups_parentheses, String.ofList_toList,
      splitOnText_eq_iff.2 ⟨ne_nil, rfl, apart⟩]
    simp

/-- The lists that are read are those that were written. -/
theorem propertyGroups_eq_ok_iff :
    propertyGroups value? count = .ok groups ↔ ListsProperties value? count groups :=
  ⟨listsProperties_of_propertyGroups, propertyGroups_of_listsProperties⟩

/-! ## The whole query -/

/-- The type names and lists that are read are those that were written, each type
name with the list at its own place. -/
theorem reads_iff {entries : List (String × List String)} :
    typeNames params ≠ [] ∧ Reads params entries ↔
      ∃ names groups, NamesTypes params names ∧
        ListsProperties (params.get? "PROPERTYNAME") names.length groups ∧
        entries = names.zip groups := by
  simp only [Reads, ← typeNames_eq_iff, ← propertyGroups_eq_ok_iff]
  constructor
  · intro h
    obtain ⟨hne, groups, hg, rfl⟩ := h
    exact ⟨_, groups, ⟨rfl, hne⟩, hg, rfl⟩
  · intro h
    obtain ⟨_, groups, ⟨rfl, hne⟩, hg, rfl⟩ := h
    exact ⟨hne, groups, hg, rfl⟩

theorem ListsProperties.length (h : ListsProperties value? count groups) :
    groups.length = count :=
  length_of_propertyGroups (propertyGroups_of_listsProperties h)

/-- The list that a type name ends up with for the list that it comes with: this
one, or for an empty one the geometry and the viewable attributes in their order. -/
inductive ListNarrowed (roles : List Role) (id : String) : List String → List String → Prop
  | listed {attributes : List String} (sorted : attributes.Pairwise (· < ·))
      (viewable : ∀ attr, attr ∈ attributes ↔ Viewable roles id attr) :
    ListNarrowed roles id [] (geometryProperty :: attributes)
  | kept {list : List String} (ne_nil : list ≠ []) : ListNarrowed roles id list list

theorem listNarrowed_forwardedList (roles : List Role) (index : LayerIndex)
    (entry : String × List String) :
    ListNarrowed roles (index.resolve entry.1) entry.2 (forwardedList roles index entry) := by
  by_cases h : entry.2 = []
  · rw [forwardedList_of_nil h, h]
    exact .listed (sorted_viewableNames _ _) fun _ => mem_viewableNames
  · rw [forwardedList_of_ne_nil h]
    exact .kept h

/-- A list that is made up is not read back as the empty one that it stands for. -/
theorem get?_forwardedParams_ne {entries : List (String × List String)} (hne : typeNames params ≠ [])
    (h : Reads params entries) {entry : String × List String} (he : entry ∈ entries)
    (hnil : entry.2 = []) : (forwardedParams roles index params entries).get? "PROPERTYNAME" ≠
      params.get? "PROPERTYNAME" := by
  intro same
  have again : Reads (forwardedParams roles index params entries) entries := by
    obtain ⟨groups, hg, rfl⟩ := h
    exact ⟨groups, by rw [typeNames_forwardedParams, same, hg], by rw [typeNames_forwardedParams]⟩
  have fixed := ((reads_forwardedParams_iff h hne).1 again).2
  rw [eq_comm, ← List.map_id entries, List.map_map, List.map_inj_left] at fixed
  have reread : rereadList roles index entry = entry.2 := congrArg Prod.snd (fixed entry he)
  have geometry : geometryProperty ∈ rereadList roles index entry :=
    (mem_rereadList_of_nil hnil).2 (.inl rfl)
  rw [reread, hnil] at geometry
  cases geometry

/-- What becomes of the parameters of an accepted query: `PROPERTYNAME` is set anew
where some list is empty, and nothing else changes. -/
theorem forwardedParams_spec (roles : List Role) (index : LayerIndex)
    {entries : List (String × List String)} (hne : typeNames params ≠ [])
    (h : Reads params entries) :
    ((forwardedParams roles index params entries).get? "PROPERTYNAME" ≠ params.get? "PROPERTYNAME" ↔
      ∃ entry ∈ entries, entry.2 = []) ∧
    (forwardedParams roles index params entries).remove "PROPERTYNAME" =
      params.remove "PROPERTYNAME" ∧
    if ∃ entry ∈ entries, entry.2 = [] then
      (forwardedParams roles index params entries).pairs.filter (Params.named "PROPERTYNAME") =
        [("PROPERTYNAME", renderGroups (entries.map (forwardedList roles index)))]
    else forwardedParams roles index params entries = params := by
  by_cases hnil : ∃ entry ∈ entries, entry.2 = []
  · have set : forwardedParams roles index params entries =
        params.set "PROPERTYNAME" (renderGroups (entries.map (forwardedList roles index))) := by
      rw [forwardedParams, if_pos (by simpa using hnil)]
    obtain ⟨entry, he, hn⟩ := id hnil
    refine ⟨iff_of_true (get?_forwardedParams_ne hne h he hn) hnil, ?_, ?_⟩
    · rw [set, Params.remove_set_self]
    · rw [if_pos hnil, set]
      exact Params.filter_setPairs_self params.pairs
  · have kept : forwardedParams roles index params entries = params := by
      rw [forwardedParams, if_neg (by simpa using hnil)]
    rw [kept, if_neg hnil]
    exact ⟨iff_of_false (fun h => h rfl) hnil, rfl, rfl⟩

/-- A query is accepted exactly if it names types, gives a list of properties or
none for each of them, and each type with its list is accepted: the layer may be
queried, and the list holds what may be asked for and not just the geometry, or
nothing while there is an attribute to view. Then `PROPERTYNAME` is replaced exactly
if some list is empty, and no other parameter changes. -/
theorem getFeatureParams_exact (roles : List Role) (index : LayerIndex) (params : Params) :
    ((Check.getFeatureParams index params).Accepts roles ↔
      ∃ names groups, NamesTypes params names ∧
        ListsProperties (params.get? "PROPERTYNAME") names.length groups ∧
        List.Forall₂ (fun name group => ListAccepted roles index (name, group)) names groups) ∧
    ∀ params' narrowed, (Check.getFeatureParams index params).eval roles = .ok (params', narrowed) →
      ∀ names groups, NamesTypes params names →
        ListsProperties (params.get? "PROPERTYNAME") names.length groups →
        (narrowed = true ↔ [] ∈ groups) ∧
        (params'.get? "PROPERTYNAME" ≠ params.get? "PROPERTYNAME" ↔ [] ∈ groups) ∧
        params'.remove "PROPERTYNAME" = params.remove "PROPERTYNAME" ∧
        if [] ∈ groups then
          ∃ lists, List.Forall₂ (fun entry list =>
              ListNarrowed roles (index.resolve entry.1) entry.2 list) (names.zip groups) lists ∧
            params'.pairs.filter (Params.named "PROPERTYNAME") =
              [("PROPERTYNAME", renderGroups lists)]
        else params' = params := by
  refine ⟨?_, fun params' narrowed accepted names groups hn hg => ?_⟩
  · simp only [Check.Accepts, Prod.exists, eval_getFeatureParams_iff, List.forall₂_iff_zip]
    constructor
    · intro h
      obtain ⟨_, _, hne, entries, hr, ha, -⟩ := h
      obtain ⟨names, groups, hn, hg, rfl⟩ := reads_iff.1 ⟨hne, hr⟩
      exact ⟨names, groups, hn, hg, hg.length.symm, fun h => ha _ h⟩
    · intro h
      obtain ⟨names, groups, hn, hg, -, ha⟩ := h
      obtain ⟨hne, hr⟩ := reads_iff.2 ⟨names, groups, hn, hg, rfl⟩
      exact ⟨_, _, hne, _, hr, fun entry he => ha he, rfl, rfl⟩
  · obtain ⟨hne, entries, hr, -, rfl, rfl⟩ := eval_getFeatureParams_iff.1 accepted
    obtain rfl : entries = names.zip groups :=
      hr.unique (reads_iff.2 ⟨names, groups, hn, hg, rfl⟩).2
    have empty : (∃ entry ∈ names.zip groups, entry.2 = []) ↔ [] ∈ groups := by
      have snd : (names.zip groups).map (·.2) = groups := List.map_snd_zip hg.length.le
      conv_rhs => rw [← snd, List.mem_map]
    obtain ⟨replaced, others, value⟩ := forwardedParams_spec roles index hne hr
    simp only [empty] at replaced value
    refine ⟨by simpa using empty, replaced, others, ?_⟩
    split
    · rename_i hnil
      rw [if_pos hnil] at value
      refine ⟨_, ?_, value⟩
      rw [List.forall₂_map_right_iff, List.forall₂_same]
      exact fun entry _ => listNarrowed_forwardedList roles index entry
    · rename_i hnil
      rwa [if_neg hnil] at value

end MapGate.FeatureQuery
