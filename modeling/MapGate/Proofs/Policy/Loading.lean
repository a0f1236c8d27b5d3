import MapGate.Policy.Store
import MapGate.Proofs.Policy.WellFormed
import MapGate.Proofs.Text.Bytes

/-!
# Which projects there are

The names of a project come from the client. If both are plain names and a settings file
can be seen where they say, there is a project (`ProjectStore.HasProject`), else it is not
found (`load_eq_notFound_iff`), also if the file is only out of sight. It is loaded if the
file holds settings that are a policy (`load_eq_ok_iff`) and invalid otherwise
(`load_eq_invalid_iff`). Only that file counts (`loadReads_settingsPath`), and none does for
other names (`loadReads_nil`).
-/

namespace MapGate

/-! ## Names -/

/-- A name for something directly below a directory that is not hidden there. -/
structure IsPlainName (s : String) : Prop where
  named : s ≠ ""
  visible : s.toList.head? ≠ some '.'
  slash : '/' ∉ s.toList
  backslash : '\\' ∉ s.toList

theorem isSafeSegment_iff {s : String} : isSafeSegment s ↔ IsPlainName s := by
  have separators : (s.toList.any fun c => c == '/' || c == '\\') = false ↔
      '/' ∉ s.toList ∧ '\\' ∉ s.toList := by
    simp only [List.any_eq_false, Bool.or_eq_true, beq_iff_eq, not_or]
    constructor
    · intro h
      exact ⟨fun slash => (h _ slash).1 rfl, fun backslash => (h _ backslash).2 rfl⟩
    · rintro ⟨slash, backslash⟩ c hc
      exact ⟨fun e => slash (e ▸ hc), fun e => backslash (e ▸ hc)⟩
  rw [isSafeSegment, Bool.and_eq_true, Bool.and_eq_true, decide_eq_true_eq, decide_eq_true_eq,
    Bool.not_eq_true', separators]
  constructor
  · rintro ⟨⟨named, visible⟩, slash, backslash⟩
    exact ⟨named, visible, slash, backslash⟩
  · intro h
    exact ⟨⟨h.named, h.visible⟩, h.slash, h.backslash⟩

/-! ## Files -/

namespace FileTree

variable {files : FileTree} {path : Path}

/-- What lies below a directory lies at the same places of the whole. -/
theorem get?_below (files : FileTree) (directory path : Path) :
    (files.below directory).get? path = files.get? (directory ++ path) := by
  rw [get?, get?, below]
  induction files.entries with
  | nil => rfl
  | cons entry entries ih =>
    obtain ⟨place, entry⟩ := entry
    rw [List.filterMap_cons, List.lookup_cons, ← ih]
    by_cases inside : directory.isPrefixOf place = true
    · obtain ⟨rest, rfl⟩ := List.isPrefixOf_iff_prefix.1 inside
      have same : (directory ++ path == directory ++ rest) = (path == rest) := by
        rw [Bool.eq_iff_iff, beq_iff_eq, beq_iff_eq, List.append_cancel_left_eq]
      simp only [inside, if_true, List.drop_left, List.lookup_cons, same]
    · have other : (directory ++ path == place) = false :=
        beq_eq_false_iff_ne.2 fun e => inside (List.isPrefixOf_iff_prefix.2 ⟨path, e⟩)
      simp only [inside, other]
      rfl

/-- A file can be seen at a path, whether or not anyone can read it. -/
inductive ShowsFile (files : FileTree) (path : Path) : Prop where
  | readable {content : ByteArray} (found : files.get? path = some (.file content))
  | locked {reason : String} (found : files.get? path = some (.locked reason))

/-- There is a file at a path, whether or not anyone can see it. -/
inductive HasFile (files : FileTree) (path : Path) : Prop where
  | shown (shows : files.ShowsFile path)
  | unseen {reason : String} (found : files.get? path = some (.unseen reason))

theorem isFile_iff : files.isFile path ↔ files.ShowsFile path := by
  rw [isFile]
  constructor
  · intro h
    split at h
    · exact .readable ‹_›
    · exact .locked ‹_›
    all_goals cases h
  · rintro (found | found) <;> simp [found]

theorem readText_eq_ok_iff {text : String} :
    files.readText path = .ok text ↔ files.get? path = some (.file text.toUTF8) := by
  constructor
  · intro h
    rw [readText] at h
    split at h
    · rename_i content found
      split at h
      · rename_i read
        cases h
        rw [found, Text.fromUTF8?_eq_some_iff.1 read]
      · cases h
    all_goals cases h
  · intro found
    rw [readText, found]
    simp only [Text.fromUTF8?_toUTF8]

/-- At a path there are these settings: a file with a text that says so, and they are a policy. -/
def SettingsAt (files : FileTree) (path : Path) (settings : ProjectSettings) : Prop :=
  ∃ text : String, files.get? path = some (.file text.toUTF8) ∧
    (Yaml.Document.ofText? text).bind ProjectSettings.ofDocument? = some settings ∧
    settings.IsPolicy

theorem SettingsAt.showsFile {settings : ProjectSettings} (h : files.SettingsAt path settings) :
    files.ShowsFile path :=
  let ⟨_, found, _⟩ := h
  .readable found

end FileTree

namespace ProjectStore

variable {store : ProjectStore} {owner name : String} {project : Project}

theorem loadSettings_eq_ok_iff {path : Path} {settings : ProjectSettings} :
    store.loadSettings path = .ok settings ↔ store.files.SettingsAt path settings := by
  have read : ∀ text, (ProjectSettings.ofText text).mapError (failure (path.textBelow store.root)) =
      .ok settings ↔ ProjectSettings.ofText text = .ok settings := fun text => by
    cases ProjectSettings.ofText text <;> simp [Except.mapError]
  constructor
  · intro h
    rw [loadSettings] at h
    split at h
    · cases h
    · rename_i text found
      exact ⟨text, FileTree.readText_eq_ok_iff.1 found,
        ProjectSettings.ofText_eq_ok_iff.1 ((read text).1 h)⟩
  · rintro ⟨text, found, good⟩
    rw [loadSettings, FileTree.readText_eq_ok_iff.2 found]
    exact (read text).2 (ProjectSettings.ofText_eq_ok_iff.2 good)

/-! ## Loading -/

/-- There is a project of that name to be seen, whatever its settings say. -/
structure HasProject (store : ProjectStore) (owner name : String) : Prop where
  plainOwner : IsPlainName owner
  plainName : IsPlainName name
  showsFile : store.files.ShowsFile (settingsPath owner name)

theorem load_of_not_hasProject (h : ¬ store.HasProject owner name) :
    store.load owner name = .error (.notFound s!"{owner}/{name}") := by
  simp only [load]
  split
  · rfl
  · rename_i plain
    split
    · rfl
    · rename_i file
      simp only [Bool.or_eq_true, Bool.not_eq_true', not_or, Bool.not_eq_false] at plain file
      exact absurd ⟨isSafeSegment_iff.1 plain.1, isSafeSegment_iff.1 plain.2,
        FileTree.isFile_iff.1 file⟩ h

/-- Where there is a project, its settings decide. -/
theorem load_of_hasProject (h : store.HasProject owner name) :
    store.load owner name = match store.loadSettings (settingsPath owner name) with
      | .ok settings => .ok (.ofSettings owner name settings)
      | .error reason => .error (.invalid s!"{owner}/{name}" reason) := by
  simp only [load, isSafeSegment_iff.2 h.plainOwner, isSafeSegment_iff.2 h.plainName,
    FileTree.isFile_iff.2 h.showsFile]
  rfl

theorem load_eq_notFound_iff : store.load owner name = .error (.notFound s!"{owner}/{name}") ↔
    ¬ store.HasProject owner name := by
  refine ⟨fun missing h => ?_, load_of_not_hasProject⟩
  rw [load_of_hasProject h] at missing
  split at missing <;> cases missing

theorem load_eq_invalid_iff :
    (∃ reason, store.load owner name = .error (.invalid s!"{owner}/{name}" reason)) ↔
      store.HasProject owner name ∧
        ∀ settings, ¬ store.files.SettingsAt (settingsPath owner name) settings := by
  constructor
  · rintro ⟨reason, invalid⟩
    by_cases h : store.HasProject owner name
    · refine ⟨h, fun settings good => ?_⟩
      rw [load_of_hasProject h, loadSettings_eq_ok_iff.2 good] at invalid
      cases invalid
    · rw [load_of_not_hasProject h] at invalid
      cases invalid
  · rintro ⟨h, bad⟩
    rw [load_of_hasProject h]
    cases read : store.loadSettings (settingsPath owner name) with
    | ok settings => exact absurd (loadSettings_eq_ok_iff.1 read) (bad settings)
    | error reason => exact ⟨reason, rfl⟩

theorem load_eq_ok_iff : store.load owner name = .ok project ↔
    IsPlainName owner ∧ IsPlainName name ∧ ∃ settings,
      store.files.SettingsAt (settingsPath owner name) settings ∧
      project = .ofSettings owner name settings := by
  constructor
  · intro loaded
    by_cases h : store.HasProject owner name
    · rw [load_of_hasProject h] at loaded
      split at loaded
      · rename_i settings read
        exact ⟨h.plainOwner, h.plainName, settings, loadSettings_eq_ok_iff.1 read,
          (Except.ok.inj loaded).symm⟩
      · cases loaded
    · rw [load_of_not_hasProject h] at loaded
      cases loaded
  · rintro ⟨plainOwner, plainName, settings, good, rfl⟩
    rw [load_of_hasProject ⟨plainOwner, plainName, good.showsFile⟩, loadSettings_eq_ok_iff.2 good]

/-- All that decides about a project is what lies at the given paths. -/
def LoadReads (store : ProjectStore) (owner name : String) (paths : List Path) : Prop :=
  ∀ files : FileTree, (∀ path ∈ paths, files.get? path = store.files.get? path) →
    (⟨store.root, files⟩ : ProjectStore).load owner name = store.load owner name

theorem loadReads_settingsPath :
    store.LoadReads owner name [settingsPath owner name] := by
  intro files same
  have same : files.get? (settingsPath owner name) = store.files.get? (settingsPath owner name) :=
    same _ List.mem_cons_self
  have text : files.readText (settingsPath owner name) =
      store.files.readText (settingsPath owner name) := by
    simp only [FileTree.readText, same]
  have file : files.isFile (settingsPath owner name) =
      store.files.isFile (settingsPath owner name) := by
    simp only [FileTree.isFile, same]
  simp only [load, loadSettings, file, text]

theorem loadReads_nil (h : ¬ (IsPlainName owner ∧ IsPlainName name)) :
    store.LoadReads owner name [] := by
  have none : ∀ store : ProjectStore, ¬ store.HasProject owner name :=
    fun store found => h ⟨found.plainOwner, found.plainName⟩
  intro files _
  rw [load_of_not_hasProject (none _), load_of_not_hasProject (none _)]

end ProjectStore

end MapGate
