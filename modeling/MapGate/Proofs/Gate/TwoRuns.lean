import MapGate.Proofs.Gate.Requirement

/-!
# Two runs side by side

Two computations of the gate go alike when both fail with errors of one variant, or
both succeed with results that are related (`Alike`). Computations of several steps go
alike when their steps do (`Alike.bind`, `Alike.mapM`, `Check.alike_forM`). Where the steps of
two runs come in different orders, it is enough that they can only fail with denials
(`alike_of_denies`).
-/

namespace MapGate

/-- The errors are of one variant, whatever they say. -/
inductive GateError.SameVariant : GateError → GateError → Prop
  | denied (d d' : Denial) : SameVariant (denied d) (denied d')
  | projectNotFound (p p' : String) : SameVariant (projectNotFound p) (projectNotFound p')
  | malformed (m m' : Malformation) : SameVariant (malformed m) (malformed m')
  | tooLarge : SameVariant tooLarge tooLarge
  | rendererFailed (r r' : String) : SameVariant (rendererFailed r) (rendererFailed r')
  | settingsUnavailable (r r' : String) :
    SameVariant (settingsUnavailable r) (settingsUnavailable r')

theorem GateError.SameVariant.refl (e : GateError) : e.SameVariant e := by
  cases e <;> constructor

variable {α β γ δ : Type}

/-- Both computations fail with errors of one variant, or both succeed with results
that are related. -/
inductive Alike (R : α → β → Prop) : Except GateError α → Except GateError β → Prop
  | error {e e' : GateError} (same : e.SameVariant e') : Alike R (.error e) (.error e')
  | ok {a : α} {b : β} (related : R a b) : Alike R (.ok a) (.ok b)

namespace Alike

variable {R : α → β → Prop} {S : γ → δ → Prop}

theorem refl (r : Except GateError α) : Alike Eq r r := by
  cases r with
  | error e => exact .error (.refl e)
  | ok a => exact .ok rfl

/-- What goes alike in two steps goes alike. -/
theorem bind {r : Except GateError α} {r' : Except GateError β} {f : α → Except GateError γ}
    {f' : β → Except GateError δ} (h : Alike R r r') (next : ∀ a b, R a b → Alike S (f a) (f' b)) :
    Alike S (r.bind f) (r'.bind f') := by
  cases h with
  | error same => exact .error same
  | ok related => exact next _ _ related

/-- What goes alike with results that are related also does with what else is known of them. -/
theorem withResults {r : Except GateError α} {r' : Except GateError β} (h : Alike R r r') :
    Alike (fun a b => R a b ∧ r = .ok a ∧ r' = .ok b) r r' := by
  cases h with
  | error same => exact .error same
  | ok related => exact .ok ⟨related, rfl, rfl⟩

/-- What goes alike for each two elements goes alike for the lists of them. -/
theorem mapM {f : α → Except GateError γ} {f' : β → Except GateError δ} {l : List α} {l' : List β}
    (h : List.Forall₂ R l l') (each : ∀ a b, R a b → Alike S (f a) (f' b)) :
    Alike (List.Forall₂ S) (l.mapM f) (l'.mapM f') := by
  induction h with
  | nil => exact .ok .nil
  | cons first rest ih =>
    rw [List.mapM_cons, List.mapM_cons]
    exact (each _ _ first).bind fun c d h => ih.bind fun cs ds hs => .ok (.cons h hs)

end Alike

/-! ## Checks -/

namespace Check

variable {roles : List Role} {R : α → β → Prop}

theorem alike_bind {S : γ → δ → Prop} {check : Check α} {check' : Check β} {next : α → Check γ}
    {next' : β → Check δ} (h : Alike R (check.eval roles) (check'.eval roles))
    (rest : ∀ a b, R a b → Alike S ((next a).eval roles) ((next' b).eval roles)) :
    Alike S ((check >>= next).eval roles) ((check' >>= next').eval roles) := by
  rw [eval_bind, eval_bind]
  exact h.bind rest

/-- What follows the same check goes alike if it does for each result. -/
theorem alike_bind_self {S : γ → δ → Prop} {check : Check α} {next : α → Check γ} {next' : α → Check δ}
    (rest : ∀ a, Alike S ((next a).eval roles) ((next' a).eval roles)) :
    Alike S ((check >>= next).eval roles) ((check >>= next').eval roles) :=
  alike_bind (.refl _) fun a _ e => e ▸ rest a

theorem alike_mapM {S : γ → δ → Prop} {f : α → Check γ} {f' : β → Check δ} {l : List α} {l' : List β}
    (h : List.Forall₂ R l l') (each : ∀ a b, R a b → Alike S ((f a).eval roles) ((f' b).eval roles)) :
    Alike (List.Forall₂ S) ((l.mapM f).eval roles) ((l'.mapM f').eval roles) := by
  rw [eval_mapM, eval_mapM]
  exact .mapM h each

theorem alike_forM {f : α → Check Unit} {f' : β → Check Unit} {l : List α} {l' : List β}
    (h : List.Forall₂ R l l')
    (each : ∀ a b, R a b → Alike Eq ((f a).eval roles) ((f' b).eval roles)) :
    Alike Eq ((l.forM f).eval roles) ((l'.forM f').eval roles) := by
  induction h with
  | nil => exact .ok rfl
  | cons first rest ih => exact alike_bind (each _ _ first) fun _ _ _ => ih

/-- A requirement is met in both runs or in none. -/
theorem alike_require {condition condition' : Bool} {e e' : GateError}
    (same : condition = condition') (variant : e.SameVariant e') :
    Alike Eq ((require condition e).eval roles) ((require condition' e').eval roles) := by
  rw [eval_require, eval_require, ← same]
  cases condition with
  | false => exact .error variant
  | true => exact .ok rfl

/-! ## Denials -/

/-- A check can only fail with a denial. -/
def Denies (check : Check α) (roles : List Role) : Prop :=
  ∀ e, check.eval roles = .error e → ∃ denial, e = .denied denial

/-- Checks that can only fail with denials go alike if they succeed alike. -/
theorem alike_of_denies {check check' : Check Unit} (denies : check.Denies roles)
    (denies' : check'.Denies roles) (same : check.Accepts roles ↔ check'.Accepts roles) :
    Alike Eq (check.eval roles) (check'.eval roles) := by
  rw [Accepts, Accepts] at same
  cases h : check.eval roles with
  | ok a =>
    obtain ⟨_, accepted⟩ := same.1 ⟨a, h⟩
    rw [accepted]
    exact .ok rfl
  | error e =>
    cases h' : check'.eval roles with
    | ok a =>
      obtain ⟨_, accepted⟩ := same.2 ⟨a, h'⟩
      cases h.symm.trans accepted
    | error e' =>
      obtain ⟨_, rfl⟩ := denies _ h
      obtain ⟨_, rfl⟩ := denies' _ h'
      exact .error (.denied _ _)

theorem denies_forM {f : α → Check Unit} {l : List α} (each : ∀ a, (f a).Denies roles) :
    (l.forM f).Denies roles := by
  intro e h
  obtain ⟨_, a, _, -, -, h⟩ := eval_forM_eq_error_iff.1 h
  exact each a e h

theorem denies_requireAll (index : LayerIndex) (list? : Option String) (permission : Permission) :
    (requireAll index list? permission).Denies roles := by
  refine denies_forM fun layer e h => ?_
  rw [show discard (requireLayer index layer permission) =
    (fun _ => ()) <$> requireLayer index layer permission from rfl, eval_map, eval_requireLayer] at h
  split at h <;> cases h
  exact ⟨_, rfl⟩

end Check

end MapGate
