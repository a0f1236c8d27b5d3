import MapGate.Gate.Error

/-!
# Checks

A check asks a permission context for flags and gives a result or an error. It
carries the context along, so that no lookup is made twice. What it gives
depends on the applicable roles alone: `Check.eval` is its outcome under some
roles, and `eval_run` says that a run in any context of these roles has that
outcome.
-/

namespace MapGate

/-- A computation that asks for permissions. -/
structure Check (α : Type) where
  run : PermissionContext → Except GateError (α × PermissionContext)
  /-- The outcome depends on the roles only. -/
  memoryless : ∀ context context', context.roles = context'.roles →
    (run context).map (·.1) = (run context').map (·.1)
  /-- The roles stay the same. -/
  roles_run : ∀ context a context', run context = .ok (a, context') →
    context'.roles = context.roles

namespace Check

variable {α β : Type}

/-- The outcome of a check under some roles. -/
def eval (check : Check α) (roles : List Role) : Except GateError α :=
  (check.run (.ofRoles roles)).map (·.1)

/-- A run in any context has the outcome of its roles. -/
theorem eval_run (check : Check α) (context : PermissionContext) :
    (check.run context).map (·.1) = check.eval context.roles :=
  check.memoryless _ _ rfl

/-- The check that gives a value. -/
protected def pure (a : α) : Check α where
  run context := .ok (a, context)
  memoryless _ _ _ := rfl
  roles_run _ _ _ h := by cases h; rfl

/-- The check that gives an error. -/
def fail (e : GateError) : Check α where
  run _ := .error e
  memoryless _ _ _ := rfl
  roles_run _ _ _ h := by cases h

/-- A check followed by one that depends on its result. -/
protected def bind (check : Check α) (next : α → Check β) : Check β where
  run context :=
    match check.run context with
    | .ok (a, context') => (next a).run context'
    | .error e => .error e
  memoryless c d h := by
    have outcome := check.memoryless c d h
    match hc : check.run c, hd : check.run d with
    | .ok (a, c'), .ok (b, d') =>
      rw [hc, hd] at outcome
      cases outcome
      exact (next a).memoryless c' d'
        ((check.roles_run _ _ _ hc).trans (h.trans (check.roles_run _ _ _ hd).symm))
    | .ok _, .error _ => rw [hc, hd] at outcome; cases outcome
    | .error _, .ok _ => rw [hc, hd] at outcome; cases outcome
    | .error _, .error _ => rw [hc, hd] at outcome; cases outcome; rfl
  roles_run c b c'' h := by
    match hc : check.run c with
    | .ok (a, c') =>
      rw [hc] at h
      exact ((next a).roles_run _ _ _ h).trans (check.roles_run _ _ _ hc)
    | .error _ => rw [hc] at h; cases h

instance : Monad Check where
  pure := Check.pure
  bind := Check.bind

/-- The check that gives the result of a computation without permissions. -/
def ofExcept : Except GateError α → Check α
  | .ok a => pure a
  | .error e => fail e

/-- Asks for the flags of a layer. -/
def layerFlags (layer : String) : Check Flags where
  run context := .ok (context.layerFlags layer)
  memoryless c d h := by simp [Except.map, h]
  roles_run c _ context' h := by
    have e : _ = context' := congrArg Prod.snd (Except.ok.inj h)
    rw [← e]
    exact c.roles_layerFlags layer

/-- Asks for the flags of all attributes of a layer. -/
def attributesFlags (layer : String) : Check (NameMap Flags) where
  run context := .ok (context.attributesFlags layer)
  memoryless c d h := by simp [Except.map, h]
  roles_run c _ context' h := by
    have e : _ = context' := congrArg Prod.snd (Except.ok.inj h)
    rw [← e]
    exact c.roles_attributesFlags layer

/-- Asks for the flags of one attribute of a layer. -/
def attributeFlags (layer attr : String) : Check Flags where
  run context := .ok (context.attributeFlags layer attr)
  memoryless c d h := by simp [Except.map, h]
  roles_run c _ context' h := by
    have e : _ = context' := congrArg Prod.snd (Except.ok.inj h)
    rw [← e]
    exact c.roles_attributeFlags layer attr

/-- The check that fails unless a condition holds. -/
def require (condition : Bool) (e : GateError) : Check Unit :=
  if condition then pure () else fail e

theorem ext_run {check check' : Check α} (h : check.run = check'.run) : check = check' := by
  cases check; cases check'; cases h; rfl

instance : LawfulMonad Check := by
  refine LawfulMonad.mk' Check ?_ (fun _ _ => rfl) ?_
  · intro α check
    refine ext_run (funext fun c => ?_)
    change (match check.run c with | .ok (a, c') => Except.ok (a, c') | .error e => .error e) = _
    split <;> simp_all
  · intro α β γ check next last
    refine ext_run (funext fun c => ?_)
    change (match (match check.run c with
        | .ok (a, c') => (next a).run c' | .error e => .error e) with
        | .ok (a, c') => (last a).run c' | .error e => .error e) =
      (match check.run c with
        | .ok (a, c') => (match (next a).run c' with
          | .ok (a, c') => (last a).run c' | .error e => .error e)
        | .error e => .error e)
    cases check.run c <;> rfl

/-! ## Outcomes -/

@[simp] theorem eval_pure (a : α) (roles : List Role) : (pure a : Check α).eval roles = .ok a :=
  rfl

@[simp] theorem eval_fail (e : GateError) (roles : List Role) :
    (fail e : Check α).eval roles = .error e := rfl

@[simp] theorem eval_bind (check : Check α) (next : α → Check β) (roles : List Role) :
    (check >>= next).eval roles = (check.eval roles).bind fun a => (next a).eval roles := by
  change Except.map _ (match check.run (.ofRoles roles) with
    | .ok (a, c') => (next a).run c' | .error e => .error e) = _
  have same : ∀ a c', check.run (.ofRoles roles) = .ok (a, c') →
      ((next a).run c').map (·.1) = (next a).eval roles := fun a c' h => by
    rw [eval_run, check.roles_run _ _ _ h]; rfl
  unfold eval
  match h : check.run (.ofRoles roles) with
  | .ok (a, c') => exact same a c' h
  | .error _ => rfl

@[simp] theorem eval_map (f : α → β) (check : Check α) (roles : List Role) :
    (f <$> check).eval roles = (check.eval roles).map f := by
  rw [map_eq_pure_bind, eval_bind]
  cases check.eval roles <;> rfl

@[simp] theorem eval_ofExcept (r : Except GateError α) (roles : List Role) :
    (ofExcept r).eval roles = r := by
  cases r <;> rfl

@[simp] theorem eval_layerFlags (layer : String) (roles : List Role) :
    (layerFlags layer).eval roles = .ok (Grants.layerFlags roles layer) :=
  congrArg Except.ok (PermissionContext.fst_layerFlags _ layer)

@[simp] theorem eval_attributesFlags (layer : String) (roles : List Role) :
    (attributesFlags layer).eval roles = .ok (Grants.attributesFlags roles layer) :=
  congrArg Except.ok (PermissionContext.fst_attributesFlags _ layer)

@[simp] theorem eval_attributeFlags (layer attr : String) (roles : List Role) :
    (attributeFlags layer attr).eval roles = .ok (Grants.attributeFlags roles layer attr) :=
  congrArg Except.ok (PermissionContext.fst_attributeFlags _ layer attr)

@[simp] theorem eval_require (condition : Bool) (e : GateError) (roles : List Role) :
    (require condition e).eval roles = if condition then .ok () else .error e := by
  unfold require; split <;> rfl

end Check

end MapGate
