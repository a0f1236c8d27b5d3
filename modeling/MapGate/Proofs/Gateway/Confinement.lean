import MapGate.Proofs.Gateway.Forwarding
import MapGate.Proofs.Policy.Loading
import MapGate.Proofs.Text.Pieces

/-!
# Where projects lie

The names of a project come from the client, and the name of its file from its settings.
Neither leads out of the directory of the project: its settings are looked for at three
plain names below the projects root (`Path.ofText_textBelow`), and the renderer is sent to
three segments below its own root (`liesBelow_mapPath`).
-/

namespace MapGate

/-! ## The settings of a project -/

/-- A name in a path that leads one directory down. -/
structure LeadsDown (s : String) : Prop where
  named : s ≠ ""
  stays : s ≠ "."
  noParent : s ≠ ".."
  slash : '/' ∉ s.toList

theorem IsPlainName.leadsDown {s : String} (h : IsPlainName s) : LeadsDown s where
  named := h.named
  stays e := h.visible (by rw [e]; rfl)
  noParent e := h.visible (by rw [e]; rfl)
  slash := h.slash

namespace Path

variable {path : Path}

theorem ofText_append_slash (s t : String) : ofText (s ++ "/" ++ t) = ofText s ++ ofText t := by
  rw [ofText, Text.splitOn_append_slash, List.filter_append]
  rfl

theorem ofText_empty : ofText "" = [] := rfl

theorem ofText_of_leadsDown {name : String} (h : LeadsDown name) : ofText name = [name] := by
  rw [ofText, Text.splitOn, List.splitOn_eq_singleton h.slash, List.map_singleton,
    String.ofList_toList]
  simp [h.named, h.stays]

/-- One name leads one directory further down. -/
theorem ofText_join (directory : String) {name : String} (h : LeadsDown name) :
    ofText (join directory name) = ofText directory ++ [name] := by
  have relative : ¬ name.toList.head? = some '/' := fun e => h.slash (List.mem_of_head? e)
  rw [join, if_neg relative]
  split
  · rename_i started
    rcases started with rfl | slash
    · rw [String.empty_append, ofText_of_leadsDown h, ofText_empty, List.nil_append]
    · obtain ⟨front, e⟩ := List.getLast?_eq_some_iff.1 slash
      obtain rfl : directory = String.ofList front ++ "/" := by
        rw [← String.toList_inj, e]
        simp
      rw [ofText_append_slash, ofText_of_leadsDown h, ← String.append_empty (s := _ ++ "/"),
        ofText_append_slash, ofText_empty, List.append_nil]
  · rw [ofText_append_slash, ofText_of_leadsDown h]

/-- The text for a path below a directory is read as that path below the directory. -/
theorem ofText_textBelow (directory : String) (h : ∀ name ∈ path, LeadsDown name) :
    ofText (path.textBelow directory) = ofText directory ++ path := by
  induction path generalizing directory with
  | nil => rw [textBelow, List.foldl_nil, List.append_nil]
  | cons name path ih =>
    obtain ⟨first, others⟩ := List.forall_mem_cons.1 h
    rw [textBelow, List.foldl_cons, ← textBelow, ih _ others, ofText_join directory first,
      List.append_assoc, List.singleton_append]

end Path

namespace ProjectStore

variable {owner name : String}

theorem leadsDown_of_mem_settingsPath (plain : IsPlainName owner ∧ IsPlainName name) :
    ∀ part ∈ settingsPath owner name, LeadsDown part := by
  have last : LeadsDown settingsFile := ⟨by decide, by decide, by decide, by decide⟩
  simp [settingsPath, plain.1.leadsDown, plain.2.leadsDown, last]

end ProjectStore

/-! ## The file of a project -/

/-- A path leads down the given segments from a directory, which may be written with
slashes at its end. -/
def LiesBelow (root : String) (segments : List String) (path : String) : Prop :=
  ∃ base below, (∃ n, root = base ++ String.ofList (List.replicate n '/')) ∧
    base.toList.getLast? ≠ some '/' ∧ path = base ++ "/" ++ below ∧
    Text.splitOn '/' below = segments

theorem liesBelow_mapPath (renderer : RendererSettings) {location : ProjectLocation}
    (h : ∀ segment ∈ [location.owner, location.name, location.file], '/' ∉ segment.toList) :
    LiesBelow renderer.mapRoot [location.owner, location.name, location.file]
      (renderer.mapPath location) := by
  obtain ⟨final, bare⟩ := Text.exists_eq_withoutFinal_append '/' renderer.mapRoot
  refine ⟨_, "/".intercalate [location.owner, location.name, location.file], final, bare, ?_,
    Text.splitOn_slashes (List.cons_ne_nil _ _) h⟩
  rw [RendererSettings.mapPath, String.intercalate_cons_of_ne_nil (List.cons_ne_nil _ _)]

namespace ProjectStore

variable {store : ProjectStore} {owner name : String} {project : Project}

/-- The three segments of a project that was loaded are no way out of a directory. -/
theorem segments_of_load (loaded : store.load owner name = .ok project) :
    ∀ segment ∈ [owner, name, project.file],
      segment ≠ "" ∧ segment ≠ ".." ∧ '/' ∉ segment.toList := by
  obtain ⟨plainOwner, plainName, settings, ⟨text, -, -, policy⟩, rfl⟩ := load_eq_ok_iff.1 loaded
  have names : ∀ {s}, IsPlainName s → s ≠ "" ∧ s ≠ ".." ∧ '/' ∉ s.toList := fun h =>
    ⟨h.named, h.leadsDown.noParent, h.slash⟩
  have file : settings.projectFile ≠ "" ∧ settings.projectFile ≠ ".." ∧
      '/' ∉ settings.projectFile.toList := by
    refine ⟨fun e => ?_, fun e => policy.fileDots (e ▸ List.infix_refl _), policy.fileSlash⟩
    obtain ⟨c, hc, -⟩ := policy.fileNamed
    rw [e] at hc
    cases hc
  simpa [Project.file, Project.ofSettings] using ⟨names plainOwner, names plainName, file⟩

/-- Loading a project looks at most at one file, three plain names below the root, which
may be a part of a larger tree of files. The project is not found if a name is not plain or
no file can be seen there, invalid if a file can be seen there without good settings in it,
and loaded otherwise. The renderer is then sent to three segments below its own root. -/
theorem load_confined (store : ProjectStore) (owner name : String) :
    (∃ paths : List Path, paths.length ≤ 1 ∧ store.LoadReads owner name paths ∧
      ∀ path ∈ paths, path = [owner, name, "access.yaml"] ∧ "." ∉ path ∧ ".." ∉ path ∧
        Path.ofText (path.textBelow store.root) = Path.ofText store.root ++ path ∧
        ∀ disk : FileTree, store.files = disk.below (Path.ofText store.root) →
          store.files.get? path = disk.get? (Path.ofText (path.textBelow store.root))) ∧
    (store.load owner name = .error (.notFound s!"{owner}/{name}") ↔
      ¬ (IsPlainName owner ∧ IsPlainName name ∧
        store.files.ShowsFile [owner, name, "access.yaml"])) ∧
    ((∃ reason, store.load owner name = .error (.invalid s!"{owner}/{name}" reason)) ↔
      IsPlainName owner ∧ IsPlainName name ∧
        store.files.ShowsFile [owner, name, "access.yaml"] ∧
        ∀ settings, ¬ store.files.SettingsAt [owner, name, "access.yaml"] settings) ∧
    (∀ project, store.load owner name = .ok project ↔
      IsPlainName owner ∧ IsPlainName name ∧ ∃ settings,
        store.files.SettingsAt [owner, name, "access.yaml"] settings ∧
        project = .ofSettings owner name settings) ∧
    ∀ project (renderer : RendererSettings), store.load owner name = .ok project →
      LiesBelow renderer.mapRoot [owner, name, project.file]
        (renderer.mapPath project.location) ∧
      ∀ segment ∈ [owner, name, project.file], segment ≠ "" ∧ segment ≠ ".." := by
  have hasProject : store.HasProject owner name ↔ IsPlainName owner ∧ IsPlainName name ∧
      store.files.ShowsFile [owner, name, "access.yaml"] :=
    ⟨fun h => ⟨h.plainOwner, h.plainName, h.showsFile⟩, fun h => ⟨h.1, h.2.1, h.2.2⟩⟩
  refine ⟨?_, load_eq_notFound_iff.trans hasProject.not, ?_, fun _ => load_eq_ok_iff,
    fun project renderer loaded => ?_⟩
  · by_cases plain : IsPlainName owner ∧ IsPlainName name
    · refine ⟨[settingsPath owner name], le_rfl, loadReads_settingsPath, ?_⟩
      intro path hp
      obtain rfl := List.mem_singleton.1 hp
      have down := leadsDown_of_mem_settingsPath plain
      have place := Path.ofText_textBelow store.root down
      refine ⟨rfl, fun h => (down _ h).stays rfl, fun h => (down _ h).noParent rfl, place, ?_⟩
      intro disk below
      rw [place, below, FileTree.get?_below]
    · exact ⟨[], Nat.zero_le 1, loadReads_nil plain, List.forall_mem_nil _⟩
  · rw [load_eq_invalid_iff, hasProject, and_assoc, and_assoc]
    rfl
  · have segments := segments_of_load loaded
    have location := location_of_load loaded
    refine ⟨?_, fun segment hs => ⟨(segments segment hs).1, (segments segment hs).2.1⟩⟩
    rw [location]
    exact liesBelow_mapPath renderer fun segment hs => (segments segment hs).2.2

/-- A root with one thing below it, in the place of the settings of a project. -/
def oneEntry (entry : FileEntry) : ProjectStore where
  root := "/srv"
  files := ⟨[(["alice", "city", "access.yaml"], entry)]⟩

theorem get?_oneEntry (entry : FileEntry) :
    (oneEntry entry).files.get? ["alice", "city", "access.yaml"] = some entry :=
  List.lookup_cons_self

theorem isPlainName_alice : IsPlainName "alice" := ⟨by decide, by decide, by decide, by decide⟩

theorem isPlainName_city : IsPlainName "city" := ⟨by decide, by decide, by decide, by decide⟩

/-- A project is not found where no file can be seen. -/
theorem load_oneEntry_of_hidden {entry : FileEntry}
    (hidden : (oneEntry entry).files.isFile ["alice", "city", "access.yaml"] = false) :
    (oneEntry entry).load "alice" "city" = .error (.notFound "alice/city") := by
  have missing : ¬ (oneEntry entry).HasProject "alice" "city" := fun h =>
    absurd (FileTree.isFile_iff.2 h.showsFile) (ne_true_of_eq_false hidden)
  have city : toString "alice" ++ toString "/" ++ toString "city" = "alice/city" := by decide
  rw [load_of_not_hasProject missing, city]

/-- A project is loaded, one that cannot be read is invalid, and one that would lie
elsewhere is not found. -/
theorem load_confined_city :
    (∃ project, Gateway.cityStore.load "alice" "city" = .ok project ∧
      LiesBelow "/srv/projects/" ["alice", "city", project.file]
        (Gateway.cityGateway.renderer.mapPath project.location)) ∧
    Gateway.cityStore.load "alice" "../city" = .error (.notFound "alice/../city") ∧
    ∃ reason, (oneEntry (.locked "Permission denied (os error 13)")).load "alice" "city" =
      .error (.invalid "alice/city" reason) := by
  have stored : Gateway.cityGateway.load = Gateway.cityStore.load := rfl
  obtain ⟨project, loads, -⟩ := Gateway.load_city
  rw [stored] at loads
  obtain ⟨-, -, -, -, confined⟩ := load_confined Gateway.cityStore "alice" "city"
  obtain ⟨-, missing, -⟩ := load_confined Gateway.cityStore "alice" "../city"
  obtain ⟨-, -, invalid, -⟩ :=
    load_confined (oneEntry (.locked "Permission denied (os error 13)")) "alice" "city"
  have locked := get?_oneEntry (.locked "Permission denied (os error 13)")
  have parent : toString "alice" ++ toString "/" ++ toString "../city" = "alice/../city" := by
    decide
  have city : toString "alice" ++ toString "/" ++ toString "city" = "alice/city" := by decide
  rw [parent] at missing
  rw [city] at invalid
  refine ⟨⟨project, loads, (confined project Gateway.cityGateway.renderer loads).1⟩,
    missing.2 fun found => absurd found.2.1.slash (by decide),
    invalid.2 ⟨isPlainName_alice, isPlainName_city, .locked locked, ?_⟩⟩
  rintro settings ⟨text, found, -⟩
  rw [locked] at found
  exact nomatch found

/-- A file that nobody can look at is there, but as good as missing: its project is not
found. So is one with a directory in the place of its settings. -/
theorem unseen_not_found :
    let unseen := oneEntry (.unseen "Permission denied (os error 13)")
    let directory := oneEntry .directory
    unseen.files.HasFile ["alice", "city", "access.yaml"] ∧
    unseen.load "alice" "city" = .error (.notFound "alice/city") ∧
    directory.files.hasEntry ["alice", "city", "access.yaml"] = true ∧
    directory.load "alice" "city" = .error (.notFound "alice/city") ∧
    ¬ ∀ (store : ProjectStore) (owner name : String),
      (∃ reason, store.load owner name = .error (.invalid s!"{owner}/{name}" reason)) ↔
        IsPlainName owner ∧ IsPlainName name ∧
          store.files.HasFile [owner, name, "access.yaml"] ∧
          ∀ settings, ¬ store.files.SettingsAt [owner, name, "access.yaml"] settings := by
  intro unseen directory
  have here : unseen.files.get? ["alice", "city", "access.yaml"] =
      some (.unseen "Permission denied (os error 13)") := get?_oneEntry _
  have missing : unseen.load "alice" "city" = .error (.notFound "alice/city") :=
    load_oneEntry_of_hidden (by decide)
  refine ⟨.unseen here, missing, by decide, load_oneEntry_of_hidden (by decide), fun all => ?_⟩
  -- without settings that can be read, the file would have to make the project invalid
  obtain ⟨reason, invalid⟩ := (all unseen "alice" "city").2
    ⟨isPlainName_alice, isPlainName_city, .unseen here, fun settings ⟨text, found, _⟩ =>
      nomatch here.symm.trans found⟩
  rw [missing] at invalid
  cases invalid

end ProjectStore

end MapGate
