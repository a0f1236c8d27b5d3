import MapGate.Proofs.Gate.TransactionDocument

/-!
# Transactions operation by operation

A transaction is decided by its operations one by one. It is accepted exactly if
it holds an operation and each of them is accepted on its own (`alone`), by
someone who has not looked up anything yet. Neither the order of the operations
nor what was looked up before matters to that (`accepts_congr`). A transaction
that is refused is refused with the error of the first operation that is
(`eval_transaction_eq_error_iff`).
-/

namespace MapGate

open Xml
open FeatureQuery (NamesType)

/-- What an attribute is called by a local name has no namespace to leave out. -/
theorem attributeOf_localName (name : String) :
    attributeOf (Text.localName name) = Text.trim (Text.localName name) := by
  refine Text.localName_of_colon_notMem fun h => ?_
  rw [Text.trim, String.toList_ofList] at h
  exact Text.colon_notMem_localName name (Text.mem_of_mem_trimChars h)

namespace Transaction

variable {roles : List Role} {index : LayerIndex} {root root' operation feature : Element} {e : GateError}

/-- The transaction with a single operation in it. -/
def alone (root operation : Element) : Element := { root with children := [operation.toNode] }

@[simp] theorem elements_alone : (alone root operation).elements = [operation] := rfl

/-! ## Accepted transactions -/

theorem accepts_alone_iff : (Check.transaction index (alone root operation)).Accepts roles ↔
    OperationAcceptable roles index operation := by
  simp [accepts_transaction_iff]

theorem accepts_iff_alone : (Check.transaction index root).Accepts roles ↔
    root.elements ≠ [] ∧ ∀ operation ∈ root.elements,
      (Check.transaction index (alone root operation)).Accepts roles := by
  simp only [accepts_alone_iff]
  exact accepts_transaction_iff

/-- Only the operations matter to whether a transaction is accepted, and not their
order. -/
theorem accepts_congr (h : root.elements.Perm root'.elements) :
    (Check.transaction index root).Accepts roles ↔
      (Check.transaction index root').Accepts roles := by
  have empty : root.elements = [] ↔ root'.elements = [] := by
    rw [← List.length_eq_zero_iff, ← List.length_eq_zero_iff, h.length_eq]
  simp only [accepts_transaction_iff, h.mem_iff, ne_eq, empty]

/-! ## Refused transactions -/

theorem eval_transaction_of_nil (h : root.elements = []) :
    (Check.transaction index root).eval roles = .error (.malformed .noOperation) := by
  simp [Check.transaction, h]

theorem eval_transaction_of_ne_nil (h : root.elements ≠ []) :
    (Check.transaction index root).eval roles =
      (root.elements.forM (Check.operation index)).eval roles := by
  rw [Check.transaction, Check.eval_bind, Check.eval_require]
  simp only [List.isEmpty_eq_false_iff.2 h, Bool.not_false, if_true]
  cases (root.elements.forM (Check.operation index)).eval roles <;> rfl

/-- On its own, an operation is refused with its own error. -/
theorem eval_transaction_alone : (Check.transaction index (alone root operation)).eval roles =
    (Check.operation index operation).eval roles := by
  rw [eval_transaction_of_ne_nil (by simp), elements_alone]
  show (Check.operation index operation >>= fun _ => pure ()).eval roles = _
  rw [Check.eval_bind]
  cases (Check.operation index operation).eval roles <;> rfl

/-- A transaction is refused for being empty, or with the error of its first
operation that is refused. -/
theorem eval_transaction_eq_error_iff : (Check.transaction index root).eval roles = .error e ↔
    root.elements = [] ∧ e = .malformed .noOperation ∨
      ∃ before operation after, root.elements = before ++ operation :: after ∧
        (∀ earlier ∈ before, (Check.transaction index (alone root earlier)).Accepts roles) ∧
        (Check.transaction index (alone root operation)).eval roles = .error e := by
  by_cases h : root.elements = []
  · rw [eval_transaction_of_nil h]
    simp [h, eq_comm]
  · rw [eval_transaction_of_ne_nil h, Check.eval_forM_eq_error_iff]
    simp only [h, false_and, false_or, eval_operation_iff, accepts_alone_iff,
      eval_transaction_alone]

/-! ## In any context -/

/-- The transaction is accepted from someone who may have looked up some
permissions already. -/
def AcceptedIn (context : PermissionContext) (index : LayerIndex) (root : Element) : Prop :=
  ∃ result, (Check.transaction index root).run context = .ok result

theorem acceptedIn_iff {context : PermissionContext} : AcceptedIn context index root ↔
    (Check.transaction index root).Accepts context.roles :=
  Check.exists_run_eq_ok_iff

theorem acceptedIn_alone_iff : AcceptedIn (.ofRoles roles) index (alone root operation) ↔
    OperationAcceptable roles index operation :=
  acceptedIn_iff.trans accepts_alone_iff

/-! ## Single operations -/

theorem deleteAcceptable_of_named (named : operation.localName = "Delete") :
    OperationAcceptable roles index operation ↔ DeleteAcceptable roles index operation := by
  simp [operationAcceptable_iff, named]

theorem updateAcceptable_of_named (named : operation.localName = "Update") :
    OperationAcceptable roles index operation ↔ UpdateAcceptable roles index operation := by
  simp [operationAcceptable_iff, named]

/-- The attributes of a new feature go by the local names of its children. -/
theorem featureAcceptable_iff : FeatureAcceptable roles index feature ↔
    PermitsLayer roles (index.resolve feature.localName) .insert ∧
      ∀ property ∈ feature.elements, PermitsAttribute roles (index.resolve feature.localName)
        (Text.trim property.localName) .edit := by
  have name : ∀ e : Element, attributeOf e.localName = Text.trim e.localName := fun e =>
    attributeOf_localName e.name
  simp only [← name]
  exact ⟨fun h => ⟨h.layer, h.properties⟩, fun h => ⟨h.1, h.2⟩⟩

theorem insertAcceptable_of_named (named : operation.localName = "Insert") :
    OperationAcceptable roles index operation ↔
      operation.elements ≠ [] ∧
        ∀ feature ∈ operation.elements, FeatureAcceptable roles index feature := by
  simp only [operationAcceptable_iff, named, String.reduceEq, false_and, true_and, or_false, false_or]
  exact ⟨fun h => ⟨h.ne_nil, h.features⟩, fun h => ⟨h.1, h.2⟩⟩

/-- A transaction is decided operation by operation, whatever was looked up before
and in whichever order they stand, and each operation by what it would do to the
layers and attributes that it names. -/
theorem transaction_exact (context : PermissionContext) (index : LayerIndex) (root : Element) :
    (AcceptedIn context index root ↔
      root.elements ≠ [] ∧
        ∀ operation ∈ root.elements, AcceptedIn (.ofRoles context.roles) index (alone root operation)) ∧
    (∀ context' root', context.roles = context'.roles → root.elements.Perm root'.elements →
      (AcceptedIn context index root ↔ AcceptedIn context' index root')) ∧
    (∀ e, (Check.transaction index root).run context = .error e ↔
      root.elements = [] ∧ e = .malformed .noOperation ∨
        ∃ before operation after, root.elements = before ++ operation :: after ∧
          (∀ earlier ∈ before, AcceptedIn (.ofRoles context.roles) index (alone root earlier)) ∧
          (Check.transaction index (alone root operation)).run (.ofRoles context.roles) = .error e) ∧
    ∀ operation,
      (AcceptedIn (.ofRoles context.roles) index (alone root operation) →
        operation.localName ∈ ["Update", "Insert", "Delete"]) ∧
      (operation.localName = "Delete" →
        (AcceptedIn (.ofRoles context.roles) index (alone root operation) ↔
          ∃ typeName, NamesType operation typeName ∧
            PermitsLayer context.roles (index.resolve typeName) .delete)) ∧
      (operation.localName = "Insert" →
        (AcceptedIn (.ofRoles context.roles) index (alone root operation) ↔
          operation.elements ≠ [] ∧ ∀ feature ∈ operation.elements,
            PermitsLayer context.roles (index.resolve feature.localName) .insert ∧
            ∀ property ∈ feature.elements,
              PermitsAttribute context.roles (index.resolve feature.localName)
                (Text.trim property.localName) .edit)) ∧
      (operation.localName = "Update" →
        (AcceptedIn (.ofRoles context.roles) index (alone root operation) ↔
          ∃ typeName, NamesType operation typeName ∧
            PermitsLayer context.roles (index.resolve typeName) .update ∧
            ∀ property ∈ operation.elementsNamed "Property",
              PropertyAcceptable context.roles (index.resolve typeName) property)) := by
  refine ⟨?_, fun context' root' hr hp => ?_, fun e => ?_, fun operation => ⟨fun h => ?_, ?_⟩⟩
  · simp only [acceptedIn_iff]
    exact accepts_iff_alone
  · rw [acceptedIn_iff, acceptedIn_iff, ← hr]
    exact accepts_congr hp
  · simp only [acceptedIn_iff, Check.run_eq_error_iff]
    exact eval_transaction_eq_error_iff
  · cases acceptedIn_alone_iff.1 h <;> simp [*]
  · simp only [acceptedIn_alone_iff, ← featureAcceptable_iff]
    exact ⟨deleteAcceptable_of_named, insertAcceptable_of_named, updateAcceptable_of_named⟩

end Transaction

end MapGate
