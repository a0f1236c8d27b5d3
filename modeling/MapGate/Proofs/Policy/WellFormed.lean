import Mathlib.Data.List.Infix
import MapGate.Policy.SettingsDocument
import MapGate.Proofs.Policy.Validation

/-!
# Which settings are a policy

Settings are accepted exactly if they are a policy (`IsPolicy`): the project file is a
plain name, layers have IDs and published layers names of their own, and roles have names
of their own, users if they are for listed users, and say nothing about the layer that
stands for no layer. Settings that are refused have the fault that is told
(`has_of_fault?`), and a policy has none (`IsPolicy.not_has`).
-/

namespace MapGate

/-- A role makes sense in itself, whatever the names of other roles. -/
structure Role.IsSound (role : Role) : Prop where
  named : role.name ≠ ""
  users : role.audience = .listed → ∃ user, user ∈ role.users
  layers : "" ∉ role.layers
  attributes : "" ∉ role.attributes

namespace ProjectSettings

variable {settings settings' : ProjectSettings} {fault : SettingsFault}

/-- Settings that make sense as a policy. -/
structure IsPolicy (settings : ProjectSettings) : Prop where
  fileNamed : ∃ c ∈ settings.projectFile.toList, Text.isBlank c = false
  fileSlash : '/' ∉ settings.projectFile.toList
  fileDots : ¬ ['.', '.'] <:+: settings.projectFile.toList
  /-- This goes for excluded layers as well. -/
  layerIds : "" ∉ settings.layers
  layerNames : ∀ name id id', Publishes settings.layers id name →
    Publishes settings.layers id' name → id = id'
  roles : ∀ role ∈ settings.roles, role.IsSound
  roleNames : (settings.roles.map (·.name)).Nodup

/-- What is wrong with some settings, as each fault says. -/
inductive Has (settings : ProjectSettings) : SettingsFault → Prop where
  | blankProjectFile (blank : ∀ c ∈ settings.projectFile.toList, Text.isBlank c) :
    Has settings .blankProjectFile
  | projectFilePath
    (path : '/' ∈ settings.projectFile.toList ∨ ['.', '.'] <:+: settings.projectFile.toList) :
    Has settings (.projectFilePath settings.projectFile)
  | emptyLayerId (member : "" ∈ settings.layers) : Has settings .emptyLayerId
  | sharedLayerName {first second name : String} (differ : first ≠ second)
    (published : Publishes settings.layers first name)
    (again : Publishes settings.layers second name) :
    Has settings (.sharedLayerName first second name)
  | emptyRoleName {role : Role} (member : role ∈ settings.roles) (unnamed : role.name = "") :
    Has settings .emptyRoleName
  | duplicateRole {name : String} (twice : [name, name].Sublist (settings.roles.map (·.name))) :
    Has settings (.duplicateRole name)
  | noListedUsers {role : Role} (member : role ∈ settings.roles)
    (listed : role.audience = .listed) (none : ∀ user, user ∉ role.users) :
    Has settings (.noListedUsers role.name)
  | emptyLayerReference {role : Role} (member : role ∈ settings.roles)
    (reference : "" ∈ role.layers ∨ "" ∈ role.attributes) :
    Has settings (.emptyLayerReference role.name)

/-! ## The project file -/

theorem isBlankText_iff {s : String} : Text.isBlankText s ↔ ∀ c ∈ s.toList, Text.isBlank c := by
  rw [Text.isBlankText, List.all_eq_true]

theorem isPath_iff {s : String} : (Text.contains "/" s || Text.contains ".." s) = true ↔
    '/' ∈ s.toList ∨ ['.', '.'] <:+: s.toList := by
  rw [Bool.or_eq_true, Text.contains_iff, Text.contains_iff]
  exact or_congr_left (List.singleton_infix_iff '/' s.toList)

theorem fileFault?_eq_none_iff {file : String} : fileFault? file = none ↔
    (∃ c ∈ file.toList, Text.isBlank c = false) ∧ '/' ∉ file.toList ∧
      ¬ ['.', '.'] <:+: file.toList := by
  have named : ¬ Text.isBlankText file ↔ ∃ c ∈ file.toList, Text.isBlank c = false := by
    simp [isBlankText_iff]
  rw [← named, ← not_or, ← isPath_iff, fileFault?]
  split
  · simp_all
  · split <;> simp_all

theorem has_of_fileFault? (h : fileFault? settings.projectFile = some fault) :
    settings.Has fault := by
  rw [fileFault?] at h
  split at h
  · rename_i blank
    cases h
    exact .blankProjectFile (isBlankText_iff.1 blank)
  · split at h
    · rename_i path
      cases h
      exact .projectFilePath (isPath_iff.1 path)
    · cases h

/-! ## Layers -/

theorem layersFault?_toList_eq_none_iff {layers : NameMap LayerSettings} :
    layersFault? [] layers.toList = none ↔ "" ∉ layers ∧
      ∀ name id id', Publishes layers id name → Publishes layers id' name → id = id' := by
  have ids : (∀ entry ∈ layers.toList, entry.1 ≠ unknownLayer) ↔ "" ∉ layers := by
    rw [Std.TreeMap.mem_iff_isSome_getElem?, Option.isSome_iff_exists, not_exists, Prod.forall]
    constructor
    · intro h layer hl
      exact h "" layer (Std.TreeMap.mem_toList_iff_getElem?_eq_some.2 hl) rfl
    · rintro h id layer hl rfl
      exact h layer (Std.TreeMap.mem_toList_iff_getElem?_eq_some.1 hl)
  rw [layersFault?_eq_none_iff, ids, nodup_publishedNames_iff]
  simp

/-- The layers before those that are left are the ones whose names are taken. -/
theorem has_of_layersFault? {published : List (String × String)}
    {before entries : List (String × LayerSettings)}
    (all : settings.layers.toList = before ++ entries)
    (taken : ∀ pair ∈ published, ∃ layer, (pair.2, layer) ∈ before ∧
      layer.isExcluded = false ∧ layer.name = pair.1)
    (h : layersFault? published entries = some fault) : settings.Has fault := by
  induction entries generalizing published before with
  | nil => cases h
  | cons entry entries ih =>
    obtain ⟨id, layer⟩ := entry
    have found : ∀ {id layer}, (id, layer) ∈ settings.layers.toList →
        settings.layers[id]? = some layer := Std.TreeMap.mem_toList_iff_getElem?_eq_some.1
    have own : settings.layers[id]? = some layer := found (by simp [all])
    have later : settings.layers.toList = (before ++ [(id, layer)]) ++ entries := by simp [all]
    have stillTaken : ∀ pair ∈ published, ∃ other, (pair.2, other) ∈ before ++ [(id, layer)] ∧
        other.isExcluded = false ∧ other.name = pair.1 := fun pair hp => by
      obtain ⟨other, ho, rest⟩ := taken pair hp
      exact ⟨other, List.mem_append_left _ ho, rest⟩
    rw [layersFault?] at h
    split at h
    · rename_i unknown
      cases h
      refine .emptyLayerId (Std.TreeMap.mem_iff_isSome_getElem?.2 ?_)
      rw [← show id = "" from unknown, own]
      rfl
    · split at h
      · exact ih later stillTaken h
      · rename_i shown
        have shown := eq_false_of_ne_true shown
        split at h
        · rename_i first again
          cases h
          obtain ⟨l, l', split, -⟩ := List.lookup_eq_some_iff.1 again
          obtain ⟨other, ho, he, hn⟩ := taken (layer.name, first) (by simp [split])
          have keys := settings.layers.distinct_keys_toList
          rw [all, List.pairwise_append] at keys
          have differ : first ≠ id := fun e =>
            keys.2.2 _ ho _ List.mem_cons_self (by rw [e]; exact Std.ReflCmp.compare_self)
          exact .sharedLayerName differ ⟨other, found (by simp [all, ho]), he, hn⟩
            ⟨layer, own, shown, rfl⟩
        · refine ih later (List.forall_mem_cons.2 ⟨⟨layer, ?_, shown, rfl⟩, stillTaken⟩) h
          exact List.mem_append_right _ List.mem_cons_self

/-! ## Roles -/

variable {seen : List String} {roles : List Role} {role : Role}

theorem roleFault?_eq_none_iff :
    roleFault? seen role = none ↔ role.IsSound ∧ role.name ∉ seen := by
  have users : ¬ (role.audience = .listed ∧ role.users.isEmpty = true) ↔
      (role.audience = .listed → ∃ user, user ∈ role.users) := by
    rw [not_and, Bool.not_eq_true, Std.TreeSet.isEmpty_eq_false_iff_exists_mem]
  have references : ¬ (role.layers.contains unknownLayer = true ∨
      role.attributes.contains unknownLayer = true) ↔ "" ∉ role.layers ∧ "" ∉ role.attributes := by
    rw [not_or, Std.TreeMap.contains_iff_mem, Std.TreeMap.contains_iff_mem, unknownLayer]
  have sound : role.IsSound ↔ role.name ≠ "" ∧
      (role.audience = .listed → ∃ user, user ∈ role.users) ∧
      "" ∉ role.layers ∧ "" ∉ role.attributes :=
    ⟨fun h => ⟨h.named, h.users, h.layers, h.attributes⟩, fun h => ⟨h.1, h.2.1, h.2.2.1, h.2.2.2⟩⟩
  rw [sound, ← users, ← references, roleFault?]
  repeat' split
  all_goals simp_all

theorem rolesFault?_eq_none_iff : rolesFault? seen roles = none ↔
    (∀ role ∈ roles, role.IsSound) ∧ (roles.map (·.name)).Nodup ∧
      ∀ role ∈ roles, role.name ∉ seen := by
  induction roles generalizing seen with
  | nil => simp [rolesFault?]
  | cons role roles ih =>
    have apart : (∀ other ∈ roles, other.name ∉ role.name :: seen) ↔
        role.name ∉ roles.map (·.name) ∧ ∀ other ∈ roles, other.name ∉ seen := by
      simp only [List.mem_cons, not_or, forall_and, List.mem_map, not_exists, not_and]
    rw [rolesFault?, Option.orElse_eq_orElse, Option.orElse_eq_or, Option.or_eq_none_iff,
      roleFault?_eq_none_iff, ih, apart, List.forall_mem_cons, List.forall_mem_cons, List.map_cons,
      List.nodup_cons]
    tauto

/-- The fault of a list of roles is that of one of them, behind those without fault. -/
theorem exists_of_rolesFault? (h : rolesFault? seen roles = some fault) :
    ∃ before role after, roles = before ++ role :: after ∧
      roleFault? ((before.map (·.name)).reverse ++ seen) role = some fault := by
  induction roles generalizing seen with
  | nil => cases h
  | cons role roles ih =>
    rw [rolesFault?, Option.orElse_eq_orElse, Option.orElse_eq_or, Option.or_eq_some_iff] at h
    rcases h with own | ⟨-, later⟩
    · exact ⟨[], role, roles, rfl, own⟩
    · obtain ⟨before, other, after, rfl, found⟩ := ih later
      refine ⟨role :: before, other, after, rfl, ?_⟩
      simpa using found

theorem has_of_rolesFault? (h : rolesFault? [] settings.roles = some fault) :
    settings.Has fault := by
  obtain ⟨before, role, after, all, found⟩ := exists_of_rolesFault? h
  have member : role ∈ settings.roles := by simp [all]
  rw [List.append_nil, roleFault?] at found
  split at found
  · rename_i unnamed
    cases found
    exact .emptyRoleName member unnamed
  · split at found
    · rename_i again
      cases found
      refine .duplicateRole ?_
      rw [all, List.map_append, List.map_cons]
      exact List.Sublist.append (List.singleton_sublist.2 (List.mem_reverse.1 again))
        (List.singleton_sublist.2 List.mem_cons_self)
    · split at found
      · rename_i listed
        cases found
        exact .noListedUsers member listed.1 (Std.TreeSet.isEmpty_iff_forall_not_mem.1 listed.2)
      · split at found
        · rename_i reference
          cases found
          rw [Std.TreeMap.contains_iff_mem, Std.TreeMap.contains_iff_mem] at reference
          exact .emptyLayerReference member reference
        · cases found

/-! ## All settings -/

theorem fault?_eq_none_iff : settings.fault? = none ↔ settings.IsPolicy := by
  rw [fault?, Option.orElse_eq_orElse, Option.orElse_eq_or, Option.or_eq_none_iff,
    Option.orElse_eq_or, Option.or_eq_none_iff, fileFault?_eq_none_iff,
    layersFault?_toList_eq_none_iff, rolesFault?_eq_none_iff]
  constructor
  · rintro ⟨⟨named, slash, dots⟩, ⟨ids, names⟩, sound, distinct, -⟩
    exact ⟨named, slash, dots, ids, names, sound, distinct⟩
  · intro h
    exact ⟨⟨h.fileNamed, h.fileSlash, h.fileDots⟩, ⟨h.layerIds, h.layerNames⟩, h.roles,
      h.roleNames, fun _ _ => List.not_mem_nil⟩

/-- A fault that is found is there. -/
theorem has_of_fault? (h : settings.fault? = some fault) : settings.Has fault := by
  rw [fault?, Option.orElse_eq_orElse, Option.orElse_eq_or, Option.or_eq_some_iff,
    Option.orElse_eq_or, Option.or_eq_some_iff] at h
  rcases h with file | ⟨-, layers | ⟨-, roles⟩⟩
  · exact has_of_fileFault? file
  · have all : settings.layers.toList = [] ++ settings.layers.toList := rfl
    exact has_of_layersFault? all (List.forall_mem_nil _) layers
  · exact has_of_rolesFault? roles

/-- A policy has no fault of any kind. -/
theorem IsPolicy.not_has (policy : settings.IsPolicy) : ¬ settings.Has fault := by
  intro has
  cases has with
  | blankProjectFile blank =>
    obtain ⟨c, hc, solid⟩ := policy.fileNamed
    exact absurd (blank c hc) (by simp [solid])
  | projectFilePath path => exact path.elim policy.fileSlash policy.fileDots
  | emptyLayerId member => exact policy.layerIds member
  | sharedLayerName differ published again =>
    exact differ (policy.layerNames _ _ _ published again)
  | emptyRoleName member unnamed => exact (policy.roles _ member).named unnamed
  | duplicateRole twice => exact List.nodup_iff_sublist.1 policy.roleNames _ twice
  | noListedUsers member listed none =>
    obtain ⟨user, hu⟩ := (policy.roles _ member).users listed
    exact none user hu
  | emptyLayerReference member reference =>
    exact reference.elim (policy.roles _ member).layers (policy.roles _ member).attributes

theorem validate_eq_ok_iff_isPolicy :
    settings.validate = .ok settings' ↔ settings' = settings ∧ settings.IsPolicy := by
  rw [← fault?_eq_none_iff, validate]
  cases settings.fault? with
  | none => simp [eq_comm]
  | some fault => simp

theorem validate_eq_error_iff :
    settings.validate = .error fault ↔ settings.fault? = some fault := by
  rw [validate]
  cases settings.fault? <;> simp

/-- A settings document is accepted exactly if it can be read and what it says is a
policy. -/
theorem ofText_eq_ok_iff {text : String} : ofText text = .ok settings ↔
    (Yaml.Document.ofText? text).bind ofDocument? = some settings ∧ settings.IsPolicy := by
  rw [ofText]
  cases (Yaml.Document.ofText? text).bind ofDocument? with
  | none => simp
  | some read =>
    have checked : read.validate.mapError SettingsError.fault = .ok settings ↔
        read.validate = .ok settings := by
      cases read.validate <;> simp [Except.mapError]
    rw [checked, validate_eq_ok_iff_isPolicy, Option.some_inj]
    constructor
    · rintro ⟨rfl, policy⟩
      exact ⟨rfl, policy⟩
    · rintro ⟨rfl, policy⟩
      exact ⟨rfl, policy⟩

/-- Settings are accepted, and stay as they are, exactly if they are a policy. If they
are refused, what is told is wrong with them, so that a policy is never refused. -/
theorem validate_exact (settings : ProjectSettings) :
    (∀ settings', settings.validate = .ok settings' ↔
      settings' = settings ∧ settings.IsPolicy) ∧
    ∀ fault, settings.validate = .error fault → settings.Has fault ∧ ¬ settings.IsPolicy := by
  refine ⟨fun settings' => validate_eq_ok_iff_isPolicy, fun fault refused => ?_⟩
  have has := has_of_fault? (validate_eq_error_iff.1 refused)
  exact ⟨has, fun policy => policy.not_has has⟩

/-- Settings with three layers of one name, of which the second is excluded and the third
has the given flags. -/
def threeRoads (flags : Flags) : ProjectSettings where
  projectFile := "city.qgs"
  access := .closed
  layers := .ofList
    [("a", (⟨"roads", ∅⟩ : LayerSettings)), ("b", ⟨"roads", .ofList [excludedFlag]⟩),
      ("c", ⟨"roads", flags⟩)]
  roles := []

theorem validate_exact_threeRoads :
    (threeRoads ∅).validate = .error (.sharedLayerName "a" "c" "roads") ∧
      (threeRoads ∅).Has (.sharedLayerName "a" "c" "roads") ∧ ¬ (threeRoads ∅).IsPolicy ∧
      (threeRoads (.ofList ["hidden", excludedFlag])).IsPolicy := by
  have refused : (threeRoads ∅).validate = .error (.sharedLayerName "a" "c" "roads") :=
    validate_eq_error_iff.2 (by decide +kernel)
  obtain ⟨-, told⟩ := validate_exact (threeRoads ∅)
  obtain ⟨has, noPolicy⟩ := told _ refused
  have faultless : (threeRoads (.ofList ["hidden", excludedFlag])).fault? = none := by
    decide +kernel
  obtain ⟨accepted, -⟩ := validate_exact (threeRoads (.ofList ["hidden", excludedFlag]))
  exact ⟨refused, has, noPolicy, ((accepted _).1 (by rw [validate, faultless])).2⟩

end ProjectSettings

end MapGate
