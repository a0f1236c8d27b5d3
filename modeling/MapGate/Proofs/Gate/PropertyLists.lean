import MapGate.Gate.FeatureQueryParams
import MapGate.Proofs.Text.Pieces

/-!
# Lists of properties, written and read

The value that gives each type name its list of properties is read back as the
entries of the names in the lists: for one list (`propertyGroups_commaList`),
and for several unless a name holds what stands between two lists
(`propertyGroups_renderGroups_iff`).
-/

namespace MapGate.FeatureQuery

theorem length_of_propertyGroups {value? : Option String} {count : Nat}
    {groups : List (List String)} (h : propertyGroups value? count = .ok groups) :
    groups.length = count := by
  simp only [propertyGroups] at h
  split at h
  · cases h; exact List.length_replicate
  · split at h
    · cases h
    · split at h
      · rename_i hl; cases h; exact hl
      · cases h
  · split at h
    · rename_i hc; cases h; exact hc.symm
    · cases h

/-- A property that was read is an entry of a comma list, and in one of several
lists nothing in it looks like the end of one list and the start of the next. -/
theorem exists_of_mem_propertyGroups {value? : Option String} {count : Nat}
    {groups : List (List String)} (h : propertyGroups value? count = .ok groups)
    {group : List String} (hg : group ∈ groups) {p : String} (hp : p ∈ group) :
    ∃ list, p ∈ Text.entries list ∧ (1 < count → ¬ [')', '('] <:+: list.toList) := by
  simp only [propertyGroups] at h
  split at h
  · cases h
    rw [(List.mem_replicate.1 hg).2] at hp
    cases hp
  · split at h
    · cases h
    · split at h
      · cases h
        obtain ⟨list, hl, rfl⟩ := List.mem_map.1 hg
        obtain ⟨piece, hpiece, rfl⟩ := List.mem_map.1 hl
        refine ⟨_, hp, fun _ => ?_⟩
        rw [String.toList_ofList]
        exact Text.not_infix_of_mem_splitCharsFrom [] _ (by simp) (by simp) hpiece
      · cases h
  · split at h
    · rename_i hc
      cases h
      rw [List.mem_singleton.1 hg] at hp
      exact ⟨_, hp, fun hl => by omega⟩
    · cases h

theorem entries_commaList (list : List String) :
    Text.entries (commaList list) = list.flatMap Text.entries := by
  by_cases h : list = []
  · subst h; rfl
  · exact Text.entries_intercalate h

theorem infix_commaList {list : List String} :
    [')', '('] <:+: (commaList list).toList ↔ ∃ name ∈ list, [')', '('] <:+: name.toList := by
  rw [commaList, String.toList_intercalate, show ",".toList = [','] from rfl,
    Text.infix_intercalate (by decide) (by decide)]
  simp

/-- A character of a comma list is a comma, or it is in one of the names. -/
theorem mem_commaList {list : List String} {c : Char} (h : c ∈ (commaList list).toList) :
    c = ',' ∨ ∃ name ∈ list, c ∈ name.toList := by
  rw [commaList, String.toList_intercalate, show ",".toList = [','] from rfl] at h
  induction list with
  | nil => cases h
  | cons first list ih =>
    cases list with
    | nil => exact .inr ⟨first, List.mem_singleton_self _, by simpa using h⟩
    | cons second list =>
      rw [List.map_cons, List.map_cons, List.intercalate_cons_cons, List.mem_append,
        List.mem_append, List.mem_singleton] at h
      rcases h with (h | h) | h
      · exact .inr ⟨first, List.mem_cons_self, h⟩
      · exact .inl h
      · exact (ih h).imp_right fun ⟨name, hn, hc⟩ => ⟨name, List.mem_cons_of_mem _ hn, hc⟩

/-! ## One list -/

theorem toList_commaList_geometry (names : List String) : ∃ rest,
    (commaList (geometryProperty :: names)).toList = 'g' :: rest := by
  rw [commaList, String.toList_intercalate, List.map_cons]
  cases names with
  | nil => exact ⟨_, rfl⟩
  | cons name names => rw [List.map_cons, List.intercalate_cons_cons]; exact ⟨_, rfl⟩

theorem propertyGroups_commaList (names : List String) :
    propertyGroups (some (commaList (geometryProperty :: names))) 1 =
      .ok [(geometryProperty :: names).flatMap Text.entries] := by
  obtain ⟨rest, e⟩ := toList_commaList_geometry names
  have e' := Text.trimChars_cons (show Text.isBlank 'g' = false by decide) rest
  have h : Text.entries (String.ofList ('g' :: Text.trimRightChars rest)) =
      (geometryProperty :: names).flatMap Text.entries := by
    rw [← e', Text.entries_trimChars, ← e, String.ofList_toList, entries_commaList]
  simp only [propertyGroups, Option.getD_some, e, e', if_true, h]
  rfl

/-! ## Several lists -/

/-- The lists in parentheses, one after the other. -/
theorem toList_renderGroups {lists : List (List String)} (hne : lists ≠ [])
    (hl : lists.length ≠ 1) : (renderGroups lists).toList =
      '(' :: [')', '('].intercalate (lists.map fun list => (commaList list).toList) ++ [')'] := by
  have joined : ∀ l : List (List Char), l ≠ [] →
      (l.map fun list => '(' :: list ++ [')']).flatten = '(' :: [')', '('].intercalate l ++ [')'] := by
    intro l
    induction l with
    | nil => exact fun h => absurd rfl h
    | cons first l ih =>
      intro _
      cases l with
      | nil => simp
      | cons second l =>
        rw [List.map_cons, List.flatten_cons, ih (by simp), List.intercalate_cons_cons]
        simp
  match lists, hne, hl with
  | first :: second :: lists, _, _ =>
    rw [renderGroups, String.toList_join, List.flatMap_map, ← joined _ (by simp), List.map_map]
    · refine congrArg List.flatten (List.map_congr_left fun list _ => ?_)
      simp
    · simp

/-- What is read from a value in parentheses. -/
theorem propertyGroups_parentheses (inside : List Char) (count : Nat) :
    propertyGroups (some (String.ofList ('(' :: inside ++ [')']))) count =
      let groups := (Text.splitOnText ")(" (String.ofList inside)).map Text.entries
      if groups.length = count then .ok groups
      else .error (.propertyGroupCount groups.length count) := by
  have trimmed : Text.trimChars ('(' :: inside ++ [')']) = '(' :: inside ++ [')'] := by
    refine Text.trimChars_eq_self (fun c hc => ?_) fun c hc => ?_
    · cases hc; decide
    · rw [List.getLast?_concat] at hc; cases hc; decide
  have cut : insideParentheses? ('(' :: inside ++ [')']) = some inside := by
    simp [insideParentheses?]
  simp only [propertyGroups, Option.getD_some, String.toList_ofList, trimmed, cut]
  rfl

/-- The pieces between the parentheses: each list is at least one. -/
theorem splitOnText_lists {lists : List (List String)} (hne : lists ≠ []) :
    Text.splitOnText ")(" (String.ofList
        ([')', '('].intercalate (lists.map fun list => (commaList list).toList))) =
      lists.flatMap fun list => Text.splitOnText ")(" (commaList list) := by
  rw [Text.splitOnText, show ")(".toList = [')', '('] from rfl, String.toList_ofList,
    Text.splitCharsFrom_intercalate (by decide) (by simpa using hne), List.flatMap_map,
    List.map_flatMap]
  rfl

/-- A list in which nothing looks like the end of one list and the start of the
next is one piece. -/
theorem splitOnText_commaList {list : List String} (h : ∀ name ∈ list, ¬ [')', '('] <:+: name.toList) :
    Text.splitOnText ")(" (commaList list) = [commaList list] := by
  have hi : ¬ [')', '('] <:+: (commaList list).toList := fun hi => by
    obtain ⟨name, hn, hi⟩ := infix_commaList.1 hi
    exact h name hn hi
  rw [Text.splitOnText, show ")(".toList = [')', '('] from rfl,
    Text.splitCharsFrom_eq_singleton [] hi]
  simp

theorem length_splitOnText_commaList {list : List String} {name : String} (hn : name ∈ list)
    (h : [')', '('] <:+: name.toList) : 1 < (Text.splitOnText ")(" (commaList list)).length := by
  rw [Text.splitOnText, List.length_map]
  exact Text.one_lt_length_splitCharsFrom (by decide) (infix_commaList.2 ⟨name, hn, h⟩)

theorem length_splitOnText_pos (list : List String) :
    0 < (Text.splitOnText ")(" (commaList list)).length := by
  rw [Text.splitOnText, List.length_map]
  exact List.length_pos_iff.2 (Text.splitCharsFrom_ne_nil _ _ _ _)

/-- Where each element gives at least one piece, there are as many pieces as
elements only if each gives exactly one. -/
theorem length_flatMap_eq_iff {α β : Type} {f : α → List β} (hf : ∀ a, 0 < (f a).length)
    {l : List α} : (l.flatMap f).length = l.length ↔ ∀ a ∈ l, (f a).length = 1 := by
  have le : ∀ l : List α, l.length ≤ (l.flatMap f).length := fun l => by
    induction l with
    | nil => simp
    | cons a l ih =>
      have := hf a
      rw [List.flatMap_cons, List.length_append, List.length_cons]
      omega
  induction l with
  | nil => simp
  | cons a l ih =>
    rw [List.forall_mem_cons, List.flatMap_cons, List.length_append, List.length_cons]
    have := hf a
    have := le l
    exact ⟨fun h => ⟨by omega, ih.1 (by omega)⟩, fun ⟨h, hl⟩ => by have := ih.2 hl; omega⟩

theorem propertyGroups_renderGroups_iff {lists groups : List (List String)} (hne : lists ≠ [])
    (hl : lists.length ≠ 1) :
    propertyGroups (some (renderGroups lists)) lists.length = .ok groups ↔
      (∀ list ∈ lists, ∀ name ∈ list, ¬ [')', '('] <:+: name.toList) ∧
      groups = lists.map (·.flatMap Text.entries) := by
  rw [← String.ofList_toList (s := renderGroups lists), toList_renderGroups hne hl,
    propertyGroups_parentheses, splitOnText_lists hne]
  simp only [List.length_map]
  by_cases h : ∀ list ∈ lists, ∀ name ∈ list, ¬ [')', '('] <:+: name.toList
  · have single : (lists.flatMap fun list => Text.splitOnText ")(" (commaList list)) =
        lists.map commaList := by
      rw [List.map_eq_flatMap]
      exact List.flatMap_congr fun list hl => splitOnText_commaList (h list hl)
    rw [single, List.length_map, if_pos rfl, List.map_map, and_iff_right h]
    simp [entries_commaList, Function.comp_def, eq_comm]
  · have more : (lists.flatMap fun list => Text.splitOnText ")(" (commaList list)).length ≠
        lists.length := fun e => h fun list hlist name hn hi => by
      have := length_splitOnText_commaList hn hi
      rw [(length_flatMap_eq_iff length_splitOnText_pos).1 e list hlist] at this
      omega
    rw [if_neg more]
    exact ⟨nofun, fun hg => absurd hg.1 h⟩

/-- Lists that start with the geometry, where there is one only, are read back
as the entries of their names. -/
theorem propertyGroups_iff {lists groups : List (List String)} (hne : lists ≠ [])
    (single : ∀ list, lists = [list] → ∃ names, list = geometryProperty :: names) :
    propertyGroups (some (renderGroups lists)) lists.length = .ok groups ↔
      (1 < lists.length → ∀ list ∈ lists, ∀ name ∈ list, ¬ [')', '('] <:+: name.toList) ∧
      groups = lists.map (·.flatMap Text.entries) := by
  by_cases hl : lists.length = 1
  · obtain ⟨list, rfl⟩ := List.length_eq_one_iff.1 hl
    obtain ⟨names, rfl⟩ := single list rfl
    rw [renderGroups, List.length_singleton, propertyGroups_commaList, Except.ok.injEq, eq_comm]
    simp
  · have := List.length_pos_iff.2 hne
    rw [propertyGroups_renderGroups_iff hne hl]
    simp only [show 1 < lists.length by omega, true_imp_iff]

end MapGate.FeatureQuery
