import MapGate.Policy.Access

/-!
# Who may use a project

The roles that apply to a user are those whose audience the user is in, in the order
of the document, or, only where there are none, those for others
(`applicableRoles_eq_iff`). Where a project defines roles, these decide alone; where
it defines none, its access mode does (`ProjectSettings.Decides`). Users who are not
signed in are treated alike, whatever they call themselves
(`matches_of_not_signedIn`).
-/

namespace MapGate

/-! ## The roles that apply -/

/-- A user is in the audience of a role in its own right. -/
inductive Role.IsFor (role : Role) (user : User) : Prop where
  | everyone (audience : role.audience = .everyone)
  | signedIn (audience : role.audience = .signedIn) (session : user.isSignedIn = true)
  | anonymous (audience : role.audience = .anonymous) (noSession : user.isSignedIn = false)
  | listed (audience : role.audience = .listed) (session : user.isSignedIn = true)
    (member : user.name ∈ role.users)

/-- A choice from some roles: those with a property, in their order. -/
inductive Role.Chooses (p : Role → Prop) : List Role → List Role → Prop where
  | nil : Chooses p [] []
  | take {role : Role} {roles chosen : List Role} (holds : p role)
    (rest : Chooses p roles chosen) : Chooses p (role :: roles) (role :: chosen)
  | leave {role : Role} {roles chosen : List Role} (fails : ¬ p role)
    (rest : Chooses p roles chosen) : Chooses p (role :: roles) chosen

/-- The roles that apply to a user: those that are for the user, or, only if there are
none, those for others. -/
inductive Role.Apply (user : User) (roles chosen : List Role) : Prop where
  | matching (some_role : ∃ role ∈ roles, role.IsFor user)
    (choice : Chooses (·.IsFor user) roles chosen)
  | others (no_role : ∀ role ∈ roles, ¬ role.IsFor user)
    (choice : Chooses (·.audience = .others) roles chosen)

variable {user other : User} {roles chosen : List Role}

theorem Role.matches_iff {role : Role} : role.matches user = true ↔ role.IsFor user := by
  rw [Role.matches]
  constructor
  · intro h
    cases audience : role.audience with
    | everyone => exact .everyone audience
    | signedIn =>
      rw [audience] at h
      exact .signedIn audience h
    | anonymous =>
      rw [audience] at h
      exact .anonymous audience (by simpa using h)
    | listed =>
      rw [audience] at h
      have both := Bool.and_eq_true_iff.1 h
      exact .listed audience both.1 (Std.TreeSet.contains_iff_mem.1 both.2)
    | others =>
      rw [audience] at h
      cases h
  · intro h
    cases h with
    | everyone audience => rw [audience]
    | signedIn audience session =>
      rw [audience]
      exact session
    | anonymous audience noSession => simp [audience, noSession]
    | listed audience session member => simp [audience, session, member]

/-- A choice is what remains when all other roles are left out. -/
theorem Role.chooses_iff {p : Role → Prop} {q : Role → Bool}
    (same : ∀ role, q role = true ↔ p role) : Chooses p roles chosen ↔ roles.filter q = chosen := by
  constructor
  · intro h
    induction h with
    | nil => rfl
    | take holds _ ih => rw [List.filter_cons_of_pos ((same _).2 holds), ih]
    | leave fails _ ih => rw [List.filter_cons_of_neg (mt (same _).1 fails), ih]
  · rintro rfl
    induction roles with
    | nil => exact .nil
    | cons role roles ih =>
      by_cases h : q role = true
      · rw [List.filter_cons_of_pos h]
        exact .take ((same role).1 h) ih
      · rw [List.filter_cons_of_neg h]
        exact .leave (mt (same role).2 h) ih

/-- Either all roles that are for the user apply, or, where there are none, all for
others. -/
theorem applicableRoles_eq_iff :
    applicableRoles user roles = chosen ↔ Role.Apply user roles chosen := by
  have matching : Role.Chooses (·.IsFor user) roles chosen ↔
      roles.filter (·.matches user) = chosen := Role.chooses_iff fun _ => Role.matches_iff
  have others : Role.Chooses (·.audience = .others) roles chosen ↔
      roles.filter (·.audience = .others) = chosen := Role.chooses_iff fun _ => decide_eq_true_iff
  have none : (roles.filter (·.matches user)).isEmpty = true ↔
      ∀ role ∈ roles, ¬ role.IsFor user := by
    simp [List.isEmpty_iff, List.filter_eq_nil_iff, ← Role.matches_iff]
  rw [applicableRoles]
  by_cases h : (roles.filter (·.matches user)).isEmpty = true
  · rw [if_pos h, ← others]
    refine ⟨fun choice => .others (none.1 h) choice, fun applies => ?_⟩
    cases applies with
    | matching some_role =>
      obtain ⟨role, hr, isFor⟩ := some_role
      exact absurd isFor (none.1 h role hr)
    | others _ choice => exact choice
  · have some_role : ∃ role ∈ roles, role.IsFor user :=
      Classical.byContradiction fun no_role =>
        h (none.2 fun role hr isFor => no_role ⟨role, hr, isFor⟩)
    rw [if_neg h, ← matching]
    refine ⟨fun choice => .matching some_role choice, fun applies => ?_⟩
    cases applies with
    | matching _ choice => exact choice
    | others no_role => exact absurd (none.2 no_role) h

/-! ## Decisions -/

/-- An access mode lets a user in. -/
inductive ProjectAccess.Admits (access : ProjectAccess) (user : User) : Prop where
  | everyone (mode : access.mode = .everyone)
  | signedIn (mode : access.mode = .signedIn) (session : user.isSignedIn = true)
  | listed (mode : access.mode = .listed) (session : user.isSignedIn = true)
    (member : user.name ∈ access.users)

theorem ProjectAccess.admits_iff {access : ProjectAccess} :
    access.admits user = true ↔ access.Admits user := by
  rw [ProjectAccess.admits]
  constructor
  · intro h
    cases mode : access.mode with
    | everyone => exact .everyone mode
    | signedIn =>
      rw [mode] at h
      exact .signedIn mode h
    | listed =>
      rw [mode] at h
      have both := Bool.and_eq_true_iff.1 h
      exact .listed mode both.1 (Std.TreeSet.contains_iff_mem.1 both.2)
    | nobody =>
      rw [mode] at h
      cases h
  · intro h
    cases h with
    | everyone mode => rw [mode]
    | signedIn mode session =>
      rw [mode]
      exact session
    | listed mode session member => simp [mode, session, member]

namespace ProjectSettings

variable {settings : ProjectSettings}

/-- What the settings of a project decide about a user, by its roles if it defines any
and by its access mode if it does not. -/
inductive Decides (settings : ProjectSettings) (user : User) : Access → Prop where
  | roles {chosen : List Role} (defined : settings.roles ≠ [])
    (applies : Role.Apply user settings.roles chosen) (some_role : chosen ≠ []) :
    Decides settings user (.roles (.ofRoles chosen))
  | noRole (defined : settings.roles ≠ []) (applies : Role.Apply user settings.roles []) :
    Decides settings user (.denied (.noRole user.name))
  | unchecked (undefined : settings.roles = []) (admits : settings.access.Admits user) :
    Decides settings user .unchecked
  | accessMode (undefined : settings.roles = []) (rejects : ¬ settings.access.Admits user) :
    Decides settings user (.denied (.accessMode settings.access.mode user.name))

theorem accessOf_of_roles (defined : settings.roles ≠ [])
    (applies : Role.Apply user settings.roles chosen) :
    settings.accessOf user =
      if chosen.isEmpty then .denied (.noRole user.name) else .roles (.ofRoles chosen) := by
  have same := applicableRoles_eq_iff.2 applies
  have all : settings.roles.isEmpty = false := by simpa using defined
  rw [accessOf, all, if_neg Bool.false_ne_true]
  simp only [PermissionContext.ofUser, same, PermissionContext.hasRoles, PermissionContext.ofRoles]
  cases chosen <;> rfl

theorem accessOf_of_mode (undefined : settings.roles = []) :
    settings.accessOf user = if settings.access.admits user then .unchecked
      else .denied (.accessMode settings.access.mode user.name) := by
  rw [accessOf, undefined, List.isEmpty_nil, if_pos rfl]

/-- One of the four decisions is made. -/
theorem decides_accessOf (settings : ProjectSettings) (user : User) :
    settings.Decides user (settings.accessOf user) := by
  by_cases defined : settings.roles = []
  · rw [accessOf_of_mode defined]
    by_cases admits : settings.access.admits user = true
    · rw [if_pos admits]
      exact .unchecked defined (ProjectAccess.admits_iff.1 admits)
    · rw [if_neg admits]
      exact .accessMode defined (mt ProjectAccess.admits_iff.2 admits)
  · have applies := applicableRoles_eq_iff.1 (rfl : applicableRoles user settings.roles = _)
    rw [accessOf_of_roles defined applies]
    split
    · rename_i none
      exact .noRole defined (List.isEmpty_iff.1 none ▸ applies)
    · rename_i some_role
      exact .roles defined applies fun e => some_role (List.isEmpty_iff.2 e)

theorem accessOf_eq_iff {access : Access} :
    settings.accessOf user = access ↔ settings.Decides user access := by
  refine ⟨fun h => h ▸ decides_accessOf settings user, fun h => ?_⟩
  cases h with
  | roles defined applies some_role =>
    rw [accessOf_of_roles defined applies, if_neg (by simpa using some_role)]
  | noRole defined applies => rw [accessOf_of_roles defined applies, List.isEmpty_nil, if_pos rfl]
  | unchecked undefined admits =>
    rw [accessOf_of_mode undefined, if_pos (ProjectAccess.admits_iff.2 admits)]
  | accessMode undefined rejects =>
    rw [accessOf_of_mode undefined, if_neg (mt ProjectAccess.admits_iff.1 rejects)]

end ProjectSettings

/-! ## Users who are not signed in -/

/-- Two decisions are of one kind, and let in under the same roles if they let in under
roles. -/
inductive Access.SameAs : Access → Access → Prop where
  | roles {context context' : PermissionContext} (same : context.roles = context'.roles) :
    SameAs (.roles context) (.roles context')
  | unchecked : SameAs .unchecked .unchecked
  | denied {reason reason' : AccessDenial} : SameAs (.denied reason) (.denied reason')

/-- The name of a user who is not signed in does not count. -/
theorem matches_of_not_signedIn (h : user.isSignedIn = false) (h' : other.isSignedIn = false)
    (role : Role) : role.matches user = role.matches other := by
  simp [Role.matches, h, h']

theorem applicableRoles_of_not_signedIn (h : user.isSignedIn = false)
    (h' : other.isSignedIn = false) (roles : List Role) :
    applicableRoles user roles = applicableRoles other roles := by
  simp only [applicableRoles, matches_of_not_signedIn h h']

theorem admits_of_not_signedIn (h : user.isSignedIn = false) (h' : other.isSignedIn = false)
    (access : ProjectAccess) : access.admits user = access.admits other := by
  simp [ProjectAccess.admits, h, h']

namespace ProjectSettings

theorem accessOf_of_not_signedIn (h : user.isSignedIn = false) (h' : other.isSignedIn = false)
    (settings : ProjectSettings) : (settings.accessOf user).SameAs (settings.accessOf other) := by
  by_cases defined : settings.roles = []
  · rw [accessOf_of_mode defined, accessOf_of_mode defined, admits_of_not_signedIn h h']
    split
    · exact .unchecked
    · exact .denied
  · have same := applicableRoles_of_not_signedIn h h' settings.roles
    rw [accessOf_of_roles defined (applicableRoles_eq_iff.1 same),
      accessOf_of_roles defined (applicableRoles_eq_iff.1 rfl)]
    split
    · exact .denied
    · exact .roles rfl

/-- The roles that apply to a user are those that are for the user, in their order, or
else those for others. Where a project defines roles the decision is made by those that
apply, whatever the access mode; where it defines none, by the access mode. For users who
are not signed in it is the same whatever their names. -/
theorem accessOf_exact (settings : ProjectSettings) (user : User) :
    (∀ chosen, applicableRoles user settings.roles = chosen ↔
      Role.Apply user settings.roles chosen) ∧
    (∀ access, settings.accessOf user = access ↔ settings.Decides user access) ∧
    (settings.roles ≠ [] → ∀ access : ProjectAccess,
      ({ settings with access } : ProjectSettings).accessOf user = settings.accessOf user) ∧
    ∀ other : User, user.isSignedIn = false → other.isSignedIn = false →
      (settings.accessOf user).SameAs (settings.accessOf other) := by
  refine ⟨fun chosen => applicableRoles_eq_iff, fun access => accessOf_eq_iff, ?_, ?_⟩
  · intro defined access
    have applies := applicableRoles_eq_iff.1 (rfl : applicableRoles user settings.roles = _)
    rw [accessOf_of_roles defined applies]
    exact accessOf_of_roles defined applies
  · intro other h h'
    exact accessOf_of_not_signedIn h h' settings

/-- A project with a role for one user and one for others. -/
def oneEditor : ProjectSettings where
  projectFile := "city.qgs"
  access := ⟨.everyone, ∅⟩
  layers := ∅
  roles :=
    [⟨"guests", .others, ∅, ∅, ∅, ∅⟩, ⟨"editors", .listed, .ofList ["alice"], ∅, ∅, ∅⟩]

theorem accessOf_oneEditor :
    oneEditor.roles ≠ [] ∧ oneEditor.accessOf ⟨"alice", true⟩ =
        ({ oneEditor with access := .closed } : ProjectSettings).accessOf ⟨"alice", true⟩ ∧
      (oneEditor.accessOf ⟨"alice", false⟩).SameAs (oneEditor.accessOf ⟨"bob", false⟩) := by
  have defined : oneEditor.roles ≠ [] := List.cons_ne_nil _ _
  obtain ⟨-, -, closed, -⟩ := accessOf_exact oneEditor ⟨"alice", true⟩
  obtain ⟨-, -, -, unnamed⟩ := accessOf_exact oneEditor ⟨"alice", false⟩
  exact ⟨defined, (closed defined .closed).symm, unnamed ⟨"bob", false⟩ rfl rfl⟩

end ProjectSettings

end MapGate
