import MapGate.Gateway.Handling
import MapGate.Proofs.Policy.Loading

/-!
# Which requests go on

A request for a project goes through four checks, and the first that fails decides
what the client is told (`Gateway.Refuses`): the project has to be there, the user
has to be let in, the body has to fit and the gate has to accept the request
(`Gateway.Admits`). There is nothing else to it (`admits_or_refuses`).
-/

namespace MapGate

/-- The permissions that bind a user who is let in, if there are any. -/
def Access.context? : Access → Option PermissionContext
  | roles context => some context
  | unchecked | denied _ => none

/-- A project comes from where its owner and name say. -/
theorem ProjectStore.location_of_load {store : ProjectStore} {owner name : String}
    {project : Project} (h : store.load owner name = .ok project) :
    project.location = ⟨owner, name, project.file⟩ := by
  obtain ⟨-, -, settings, -, rfl⟩ := load_eq_ok_iff.1 h
  rfl

namespace Gateway

variable {gateway : Gateway} {owner name : String} {user : User} {request : Request}

/-- The project is there, the user is let in, the body fits, and the gate accepts the
request with its inspection and leaves it as `left`. -/
structure Admits (gateway : Gateway) (owner name : String) (user : User) (request : Request)
    (project : Project) (inspection : Inspection) (left : Request) : Prop where
  loads : gateway.load owner name = .ok project
  allowed : (project.settings.accessOf user).isDenied = false
  fits : request.body.size ≤ gateway.maxBodyBytes
  accepted : (gateway.renderer.direct project.location request).inspect project.layers
    (project.settings.accessOf user).context? = .ok (inspection, left)

/-- Why a request does not go on, one case for each check. -/
inductive Refuses (gateway : Gateway) (owner name : String) (user : User) (request : Request) :
    GateError → Prop where
  | load {e : StoreError} (fails : gateway.load owner name = .error e) :
    Refuses gateway owner name user request e.toGateError
  | access {project : Project} {reason : AccessDenial}
    (loads : gateway.load owner name = .ok project)
    (denied : project.settings.accessOf user = .denied reason) :
    Refuses gateway owner name user request (.denied (.access reason))
  | body {project : Project} (loads : gateway.load owner name = .ok project)
    (allowed : (project.settings.accessOf user).isDenied = false)
    (large : gateway.maxBodyBytes < request.body.size) :
    Refuses gateway owner name user request .tooLarge
  | inspection {project : Project} {e : GateError}
    (loads : gateway.load owner name = .ok project)
    (allowed : (project.settings.accessOf user).isDenied = false)
    (fits : request.body.size ≤ gateway.maxBodyBytes)
    (rejected : (gateway.renderer.direct project.location request).inspect project.layers
      (project.settings.accessOf user).context? = .error e) :
    Refuses gateway owner name user request e

/-! ## One check after the other -/

theorem vet_of_load_error {e : StoreError} (h : gateway.load owner name = .error e) :
    gateway.vet owner name user request = .error e.toGateError := by
  rw [vet, h]
  rfl

theorem permissions?_of_allowed {settings : ProjectSettings}
    (h : (settings.accessOf user).isDenied = false) :
    permissions? settings user = .ok (settings.accessOf user).context? := by
  unfold permissions?
  cases e : settings.accessOf user with
  | roles context => rfl
  | unchecked => rfl
  | denied reason => rw [e] at h; cases h

theorem vet_of_denied {project : Project} {reason : AccessDenial}
    (loads : gateway.load owner name = .ok project)
    (h : project.settings.accessOf user = .denied reason) :
    gateway.vet owner name user request = .error (.denied (.access reason)) := by
  have stopped : permissions? project.settings user = .error (.denied (.access reason)) := by
    simp only [permissions?, h]
  rw [vet, loads]
  show (permissions? project.settings user >>= _) = _
  rw [stopped]
  rfl

/-- For a user who is let in, the size of the body and the inspection decide. -/
theorem vet_of_allowed {project : Project} (loads : gateway.load owner name = .ok project)
    (allowed : (project.settings.accessOf user).isDenied = false) :
    gateway.vet owner name user request =
      if gateway.maxBodyBytes < request.body.size then .error .tooLarge
      else ((gateway.renderer.direct project.location request).inspect project.layers
        (project.settings.accessOf user).context?).map fun found =>
          ⟨found.1, askPlain found.1.operation found.2⟩ := by
  rw [vet, loads]
  show (permissions? project.settings user >>= _) = _
  rw [permissions?_of_allowed allowed]
  rfl

/-! ## All checks -/

theorem Admits.vet {project : Project} {inspection : Inspection} {left : Request}
    (h : gateway.Admits owner name user request project inspection left) :
    gateway.vet owner name user request = .ok ⟨inspection, askPlain inspection.operation left⟩ := by
  rw [vet_of_allowed h.loads h.allowed, if_neg (Nat.not_lt.2 h.fits), h.accepted]
  rfl

theorem Refuses.vet {e : GateError} (h : gateway.Refuses owner name user request e) :
    gateway.vet owner name user request = .error e := by
  cases h with
  | load fails => exact vet_of_load_error fails
  | access loads denied => exact vet_of_denied loads denied
  | body loads allowed large => rw [vet_of_allowed loads allowed, if_pos large]
  | inspection loads allowed fits rejected =>
    rw [vet_of_allowed loads allowed, if_neg (Nat.not_lt.2 fits), rejected]
    rfl

theorem Admits.not_refuses {project : Project} {inspection : Inspection} {left : Request}
    (h : gateway.Admits owner name user request project inspection left) {e : GateError} :
    ¬ gateway.Refuses owner name user request e :=
  fun refuses => nomatch h.vet.symm.trans refuses.vet

/-- A request goes on or does not, for one of the reasons. -/
theorem admits_or_refuses (gateway : Gateway) (owner name : String) (user : User)
    (request : Request) :
    (∃ project inspection left, gateway.Admits owner name user request project inspection left) ∨
      ∃ e, gateway.Refuses owner name user request e := by
  cases loads : gateway.load owner name with
  | error e => exact .inr ⟨_, .load loads⟩
  | ok project =>
    cases access : project.settings.accessOf user with
    | denied reason => exact .inr ⟨_, .access loads access⟩
    | _ =>
      have allowed : (project.settings.accessOf user).isDenied = false := by rw [access]; rfl
      rcases Nat.lt_or_ge gateway.maxBodyBytes request.body.size with large | fits
      · exact .inr ⟨_, .body loads allowed large⟩
      · cases found : (gateway.renderer.direct project.location request).inspect project.layers
          (project.settings.accessOf user).context? with
        | error e => exact .inr ⟨e, .inspection loads allowed fits found⟩
        | ok passed => exact .inl ⟨project, passed.1, passed.2, loads, allowed, fits, found⟩

end Gateway

end MapGate
