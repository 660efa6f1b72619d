import TokenLedger.Plan.Domain
import TokenLedger.Proofs.Settlement
import TokenLedger.Proofs.Writes

/-!
When the groups that a domain action brings along or refers to are in order.
-/

set_option autoImplicit false

namespace TokenLedger

section Definitions

variable {groups : List Group}

theorem checkDefinitions_eq_ok_iff {earlier : List GroupId} :
    checkDefinitions earlier groups = .ok () ↔
      (∀ group ∈ groups, group.isValid = true ∧ group.idMatchesKey = true) ∧
        Distinct earlier (groups.map Group.id) := by
  induction groups generalizing earlier with
  | nil => simp [checkDefinitions]
  | cons group rest inductionHypothesis =>
      simp only [checkDefinitions, bind_eq_ok_iff, ensure_eq_ok_iff, inductionHypothesis,
        exists_unit_iff, decide_eq_true_eq, List.forall_mem_cons, List.map_cons, distinct_cons_iff]
      constructor
      · rintro ⟨valid, matching, fresh, others, distinct⟩
        exact ⟨⟨⟨valid, matching⟩, others⟩, fresh, distinct⟩
      · rintro ⟨⟨⟨valid, matching⟩, others⟩, fresh, distinct⟩
        exact ⟨valid, matching, fresh, others, distinct⟩

/-- Definitions are in order if each is valid and belongs to its key, and no two are of one group.
-/
theorem checkDefinitions_nil_eq_ok_iff :
    checkDefinitions [] groups = .ok () ↔
      (∀ group ∈ groups, group.isValid = true) ∧ (∀ group ∈ groups, group.id = .ofKey group.key) ∧
        (groups.map Group.id).Nodup := by
  simp only [checkDefinitions_eq_ok_iff, distinct_nil_left, Group.idMatchesKey, decide_eq_true_eq,
    imp_and, forall_and, and_assoc]

theorem settle_checkAbsent_eq_ok_iff {store : Store} :
    (checkAbsent groups).settle store = .ok () ↔
      ∀ group ∈ groups, store.groups.contains group.id = false := by
  simp [checkAbsent, forM_eq_ok_iff]

theorem Slot.allowsOwner_iff {slot : Slot} : slot.allowsOwner = true ↔ slot = .transfer := by
  cases slot <;> decide

/-- A reference is in order if it is to the owner where that is allowed, or to a group from
exactly one of the store and the definitions. -/
def Permission.Resolves (permission : Permission) (store : Store) (defined : List Group)
    (allowsOwner : Bool) : Prop :=
  ∀ reference ∈ permission.groups,
    if reference.id = .owner then allowsOwner = true
    else ¬(store.groups.contains reference.id = true ↔
      ∃ group ∈ defined, group.id = reference.id)

theorem Permission.settle_resolve_eq_ok_iff {permission : Permission} {store : Store}
    {allowsOwner : Bool} :
    (permission.resolve groups allowsOwner).settle store = .ok () ↔
      permission.Resolves store groups allowsOwner := by
  simp only [Permission.resolve, List.forM_eq_forM, Check.settle_forM, forM_eq_ok_iff,
    Permission.Resolves]
  refine forall₂_congr fun reference _ => ?_
  by_cases owner : reference.id = .owner
  · simp [owner]
  · cases stored : store.groups.contains reference.id <;> simp [owner, resolveGroup, stored]

end Definitions

theorem Slot.check_eq_ok_iff {slot : Slot} {permission : Permission} :
    slot.check permission = .ok () ↔
      permission.name.text = slot.name ∧ (slot.needsThreshold = true → permission.threshold ≠ 0) ∧
        permission.isValid = true := by
  cases needed : slot.needsThreshold <;> simp [Slot.check, bind_eq_ok_iff, needed]

end TokenLedger
