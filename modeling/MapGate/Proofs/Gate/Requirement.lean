import Mathlib.Data.List.Forall2
import MapGate.Gate.Require
import MapGate.Proofs.Policy.Grants

/-!
# When requirements are met

The outcome of a check under some roles, said of its parts: a check of several
steps succeeds when each step does (`eval_bind_iff`, `eval_forM_iff`,
`eval_mapM_iff`), and the requirements on layers and attributes succeed when
the roles permit what is asked (`eval_requireLayer_iff`,
`eval_requireAttribute_iff`, `eval_requireAll_iff`). Two computations that fail
alike have the same `verdict`.
-/

namespace MapGate

/-- One of the roles permits something on the layer with an ID. -/
def PermitsLayer (roles : List Role) (id : String) (permission : Permission) : Prop :=
  id ≠ unknownLayer ∧
    ∃ role ∈ roles, ∃ flags, role.layers[id]? = some flags ∧ flags.has permission.tag

/-- One of the roles permits something on an attribute. -/
def PermitsAttribute (roles : List Role) (id attr : String) (permission : Permission) : Prop :=
  id ≠ unknownLayer ∧
    ∃ role ∈ roles, ∃ attributes flags, role.attributes[id]? = some attributes ∧
      attributes[attr]? = some flags ∧ flags.has permission.tag

theorem has_layerFlags_iff {roles : List Role} {id : String} {permission : Permission} :
    (Grants.layerFlags roles id).has permission.tag = true ↔ PermitsLayer roles id permission :=
  Grants.has_layerFlags

theorem has_attributeFlags_iff {roles : List Role} {id attr : String} {permission : Permission} :
    (Grants.attributeFlags roles id attr).has permission.tag = true ↔
      PermitsAttribute roles id attr permission :=
  Grants.has_attributeFlags

/-- Nothing is permitted on no layer. -/
theorem not_permitsLayer_unknownLayer {roles : List Role} {permission : Permission} :
    ¬ PermitsLayer roles unknownLayer permission :=
  fun h => h.1 rfl

instance (roles : List Role) (id : String) (permission : Permission) :
    Decidable (PermitsLayer roles id permission) :=
  decidable_of_iff _ has_layerFlags_iff

instance (roles : List Role) (id attr : String) (permission : Permission) :
    Decidable (PermitsAttribute roles id attr permission) :=
  decidable_of_iff _ has_attributeFlags_iff

/-! ## Results of computations that may fail -/

section Except

variable {ε α β : Type}

theorem bind_ok (a : α) (f : α → Except ε β) : (Except.ok a).bind f = f a := rfl

theorem bind_eq_ok_iff {r : Except ε α} {f : α → Except ε β} {b : β} :
    r.bind f = .ok b ↔ ∃ a, r = .ok a ∧ f a = .ok b := by
  cases r with
  | error e => exact ⟨nofun, fun ⟨_, h, _⟩ => nomatch h⟩
  | ok a => exact ⟨fun h => ⟨a, rfl, h⟩, fun ⟨_, e, h⟩ => by cases e; exact h⟩

theorem map_eq_ok_iff {r : Except ε α} {f : α → β} {b : β} :
    r.map f = .ok b ↔ ∃ a, r = .ok a ∧ f a = b := by
  cases r <;> simp [Except.map]

theorem mapError_eq_ok_iff {δ : Type} {r : Except ε α} {f : ε → δ} {a : α} :
    r.mapError f = .ok a ↔ r = .ok a := by
  cases r <;> simp [Except.mapError]

theorem mapM_eq_ok_iff {f : α → Except ε β} {l : List α} {bs : List β} :
    l.mapM f = .ok bs ↔ List.Forall₂ (fun a b => f a = .ok b) l bs := by
  induction l generalizing bs with
  | nil => simp [pure, Except.pure, eq_comm]
  | cons a l ih =>
    rw [List.mapM_cons, List.forall₂_cons_left_iff]
    show (f a).bind (fun b => (l.mapM f).bind fun bs => .ok (b :: bs)) = .ok bs ↔ _
    simp only [bind_eq_ok_iff, ih, Except.ok.injEq]
    exact ⟨fun ⟨b, hb, bs', h, e⟩ => ⟨b, bs', hb, h, e.symm⟩,
      fun ⟨b, bs', hb, h, e⟩ => ⟨b, hb, bs', h, e.symm⟩⟩

/-- Whether a computation fails, and with what error. -/
def verdict (r : Except ε α) : Except ε Unit := r.map fun _ => ()

theorem verdict_eq_error_iff {r : Except ε α} {e : ε} : verdict r = .error e ↔ r = .error e := by
  cases r <;> simp [verdict, Except.map]

/-- What cannot fail does not change the verdict. -/
theorem verdict_bind {r : Except ε α} {f : α → Except ε β} (h : ∀ a, verdict (f a) = .ok ()) :
    verdict (r.bind f) = verdict r := by
  cases r with
  | error e => rfl
  | ok a => exact h a

/-- Two lists of computations with the same verdicts fail alike. -/
theorem verdict_mapM_congr {γ δ : Type} {f : α → Except ε γ} {g : α → Except ε δ} {l : List α}
    (h : ∀ a ∈ l, verdict (f a) = verdict (g a)) : verdict (l.mapM f) = verdict (l.mapM g) := by
  induction l with
  | nil => rfl
  | cons a l ih =>
    rw [List.forall_mem_cons] at h
    rw [List.mapM_cons, List.mapM_cons]
    show verdict ((f a).bind fun c => (l.mapM f).bind fun cs => .ok (c :: cs)) =
      verdict ((g a).bind fun d => (l.mapM g).bind fun ds => .ok (d :: ds))
    have same := h.1
    match f a, g a, same with
    | .ok c, .ok d, _ =>
      calc verdict ((l.mapM f).bind fun cs => .ok (c :: cs))
        _ = verdict (l.mapM f) := verdict_bind fun _ => rfl
        _ = verdict (l.mapM g) := ih h.2
        _ = verdict ((l.mapM g).bind fun ds => .ok (d :: ds)) := (verdict_bind fun _ => rfl).symm
    | .error _, .error _, same => cases same; rfl

end Except

namespace Check

variable {α β : Type} {roles : List Role}

/-- A check succeeds under some roles. -/
def Accepts (check : Check α) (roles : List Role) : Prop := ∃ a, check.eval roles = .ok a

/-- What has been looked up before does not matter to whether a check succeeds. -/
theorem exists_run_eq_ok_iff {check : Check α} {context : PermissionContext} :
    (∃ result, check.run context = .ok result) ↔ check.Accepts context.roles := by
  rw [Accepts, ← eval_run]
  simp only [map_eq_ok_iff]
  exact ⟨fun ⟨result, h⟩ => ⟨_, result, h, rfl⟩, fun ⟨_, result, h, _⟩ => ⟨result, h⟩⟩

/-- Nor does it to the error with which the check fails. -/
theorem run_eq_error_iff {check : Check α} {context : PermissionContext} {e : GateError} :
    check.run context = .error e ↔ check.eval context.roles = .error e := by
  rw [← eval_run]
  cases check.run context <;> simp [Except.map]

theorem eval_bind_iff {check : Check α} {next : α → Check β} {b : β} :
    (check >>= next).eval roles = .ok b ↔
      ∃ a, check.eval roles = .ok a ∧ (next a).eval roles = .ok b := by
  rw [eval_bind, bind_eq_ok_iff]

theorem eval_require_iff {condition : Bool} {e : GateError} {u : Unit} :
    (require condition e).eval roles = .ok u ↔ condition = true := by
  rw [eval_require]; split <;> simp_all

/-- The check that throws away a result. -/
theorem eval_discard_iff {check : Check α} {u : Unit} :
    (discard check).eval roles = .ok u ↔ check.Accepts roles := by
  rw [show discard check = (fun _ => ()) <$> check from rfl, eval_map, map_eq_ok_iff, Accepts]
  simp

theorem eval_forM_iff {f : α → Check Unit} {l : List α} {u : Unit} :
    (l.forM f).eval roles = .ok u ↔ ∀ a ∈ l, (f a).eval roles = .ok () := by
  induction l with
  | nil => simp
  | cons a l ih =>
    show (f a >>= fun _ => l.forM f).eval roles = .ok u ↔ _
    rw [eval_bind_iff, List.forall_mem_cons]
    exact ⟨fun ⟨_, h, h'⟩ => ⟨h, ih.mp h'⟩, fun ⟨h, h'⟩ => ⟨(), h, ih.mpr h'⟩⟩

/-- The first of the checks that fails decides with what error all of them do. -/
theorem eval_forM_eq_error_iff {f : α → Check Unit} {l : List α} {e : GateError} :
    (l.forM f).eval roles = .error e ↔
      ∃ before a after, l = before ++ a :: after ∧
        (∀ b ∈ before, (f b).eval roles = .ok ()) ∧ (f a).eval roles = .error e := by
  induction l with
  | nil => simp
  | cons a l ih =>
    show (f a >>= fun _ => l.forM f).eval roles = .error e ↔ _
    simp only [eval_bind, List.cons_eq_append_iff]
    cases ha : (f a).eval roles with
    | error e' =>
      constructor
      · intro h
        cases h
        exact ⟨[], a, l, .inl ⟨rfl, rfl⟩, nofun, ha⟩
      · intro h
        obtain ⟨before, b, after, ⟨rfl, h⟩ | ⟨before', rfl, -⟩, passed, hb⟩ := h
        · obtain ⟨rfl, rfl⟩ := List.cons.inj h
          exact ha.symm.trans hb
        · exact absurd (ha.symm.trans (passed a List.mem_cons_self)) (by simp)
    | ok u =>
      rw [bind_ok, ih]
      constructor
      · intro h
        obtain ⟨before, b, after, rfl, passed, hb⟩ := h
        exact ⟨a :: before, b, after, .inr ⟨before, rfl, rfl⟩,
          List.forall_mem_cons.2 ⟨ha, passed⟩, hb⟩
      · intro h
        obtain ⟨before, b, after, ⟨rfl, h⟩ | ⟨before', rfl, rfl⟩, passed, hb⟩ := h
        · obtain ⟨rfl, rfl⟩ := List.cons.inj h
          exact absurd (ha.symm.trans hb) (by simp)
        · exact ⟨before', b, after, rfl, (List.forall_mem_cons.1 passed).2, hb⟩

theorem eval_mapM (f : α → Check β) (l : List α) (roles : List Role) :
    (l.mapM f).eval roles = l.mapM fun a => (f a).eval roles := by
  induction l with
  | nil => rfl
  | cons a l ih =>
    simp only [List.mapM_cons, eval_bind, ih, eval_pure]
    rfl

theorem eval_mapM_iff {f : α → Check β} {l : List α} {bs : List β} :
    (l.mapM f).eval roles = .ok bs ↔ List.Forall₂ (fun a b => (f a).eval roles = .ok b) l bs := by
  rw [eval_mapM, mapM_eq_ok_iff]

/-- A list whose checks each give the value of a function, where a condition
holds. -/
theorem eval_mapM_iff_map {f : α → Check β} {p : α → Prop} {g : α → β}
    (h : ∀ a b, (f a).eval roles = .ok b ↔ p a ∧ b = g a) {l : List α} {bs : List β} :
    (l.mapM f).eval roles = .ok bs ↔ (∀ a ∈ l, p a) ∧ bs = l.map g := by
  simp only [eval_mapM_iff, h]
  induction l generalizing bs with
  | nil => simp
  | cons a l ih =>
    rw [List.forall₂_cons_left_iff, List.forall_mem_cons, List.map_cons]
    constructor
    · intro h
      obtain ⟨_, bs, ⟨ha, rfl⟩, hbs, rfl⟩ := h
      obtain ⟨hl, rfl⟩ := ih.1 hbs
      exact ⟨⟨ha, hl⟩, rfl⟩
    · intro h
      obtain ⟨⟨ha, hl⟩, rfl⟩ := h
      exact ⟨_, _, ⟨ha, rfl⟩, ih.2 ⟨hl, rfl⟩, rfl⟩

/-! ## Layers and attributes -/

variable {index : LayerIndex} {permission : Permission}

theorem eval_requireLayer_iff {layer id : String} :
    (requireLayer index layer permission).eval roles = .ok id ↔
      PermitsLayer roles (index.resolve layer) permission ∧ id = index.resolve layer := by
  simp only [requireLayer, eval_bind_iff, eval_layerFlags, eval_require_iff, eval_pure,
    Except.ok.injEq, exists_eq_left', exists_and_left, exists_const, has_layerFlags_iff]
  exact and_congr_right fun _ => eq_comm

/-- What a layer is required for is decided on the layer that its name resolves to. -/
theorem eval_requireLayer (index : LayerIndex) (layer : String) (permission : Permission)
    (roles : List Role) : (requireLayer index layer permission).eval roles =
      if PermitsLayer roles (index.resolve layer) permission then .ok (index.resolve layer)
      else .error (.denied (.layerLacks layer permission.tag)) := by
  simp only [requireLayer, eval_bind, eval_layerFlags, eval_require, eval_pure, Except.bind,
    ← has_layerFlags_iff]
  split <;> rename_i h <;> split at h <;> simp_all

theorem accepts_requireLayer {layer : String} :
    (requireLayer index layer permission).Accepts roles ↔
      PermitsLayer roles (index.resolve layer) permission := by
  simp [Accepts, eval_requireLayer_iff]

theorem eval_requireAttribute_iff {id layer attr : String} {u : Unit} :
    (requireAttribute id layer attr permission).eval roles = .ok u ↔
      PermitsAttribute roles id attr permission := by
  simp only [requireAttribute, eval_bind_iff, eval_attributeFlags, eval_require_iff,
    Except.ok.injEq, exists_eq_left', has_attributeFlags_iff]

/-- All layers of a comma list are permitted. -/
theorem eval_requireAll_iff {list? : Option String} {u : Unit} :
    (requireAll index list? permission).eval roles = .ok u ↔
      ∀ layer ∈ Text.entries (list?.getD ""), PermitsLayer roles (index.resolve layer) permission := by
  simp only [requireAll, eval_forM_iff, eval_discard_iff, accepts_requireLayer]

end Check

end MapGate
