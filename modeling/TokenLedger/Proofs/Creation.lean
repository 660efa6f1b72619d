import TokenLedger.Proofs.DryRun
import TokenLedger.Proofs.Requirements

/-!
When a domain may be created.

A new domain is in order if a number of conditions hold (`NewDomain.Acceptable`), among them that
every group that its permissions refer to comes from one place, and that no group is defined that is
stored. They are looked at in a fixed order (`NewDomain.requirements`), and a rejection tells of the
first that does not hold (`NewDomain.dryRun_iff`).
-/

set_option autoImplicit false

namespace TokenLedger

namespace NewDomain

/-- The domain may be created as the action says. -/
structure Acceptable (action : NewDomain) (context : Context) (store : Store) : Prop where
  authorized : context.authorized (.newDomain action.name) = true
  absent : store.domains.contains action.name = false
  groups_valid : ∀ group ∈ action.groups, group.isValid = true
  groups_derived : ∀ group ∈ action.groups, group.id = .ofKey group.key
  groups_distinct : (action.groups.map Group.id).Nodup
  named : action.name.text ≠ ""
  permissions_named : ∀ slot : Slot, (action.permission slot).name.text = slot.name
  permissions_valid : ∀ slot : Slot, (action.permission slot).isValid = true
  issue_threshold : action.issue.threshold ≠ 0
  transfer_threshold : action.transfer.threshold ≠ 0
  references : ∀ slot : Slot, ∀ reference ∈ (action.permission slot).groups,
    if reference.id = .owner then slot = .transfer
    else ¬(store.groups.contains reference.id = true ↔
      ∃ group ∈ action.groups, group.id = reference.id)
  groups_absent : ∀ group ∈ action.groups, store.groups.contains group.id = false

/-- What is required of the action, in the order in which it is looked at. -/
def requirements (action : NewDomain) (context : Context) (store : Store) : List Requirement :=
  [[⟨context.authorized (.newDomain action.name) = true, .unauthorized⟩],
    [⟨store.domains.contains action.name = false, .domainExists action.name⟩],
    Group.requirements [] action.groups,
    [⟨action.name.text ≠ "", .emptyDomainName⟩],
    Slot.all.flatMap fun slot => slot.requirements (action.permission slot),
    Slot.all.flatMap fun slot =>
      (action.permission slot).requirements store action.groups slot.allowsOwner,
    Group.absences store action.groups].flatten

variable (action : NewDomain) (context : Context) (store : Store)

theorem judges_validate :
    Judges (.newDomain (action.record context.time) action.groups)
      (action.requirements context store)
      (((Action.newDomain action).validate context).settle store) := by
  simp only [requirements, List.flatten_cons, Action.validate, Action.plan, Check.settle_bind]
  refine .bind (context.judges_require store _) ?_
  simp only [plan, Check.settle_bind, Check.settle_existsDomain, Check.settle_ensure,
    Check.settle_ofExcept, List.forM_eq_forM, Check.settle_forM, ok_bind]
  -- From here on one rule for each stage, in the order of the list.
  refine .bind (.ensure (by rw [Bool.not_eq_true']) _) ?_
  refine .bind (judges_checkDefinitions action.groups []) ?_
  refine .bind (.ensure (by simp [Name.isEmpty]) _) ?_
  refine .bind (.forM fun slot => slot.judges_check _) ?_
  refine .bind (.forM fun slot => (action.permission slot).judges_resolve store _ _) ?_
  exact .bind (judges_checkAbsent store action.groups) .accepted

variable {action context store} {plan : Plan}

theorem acceptable_of_settle (authorized : context.authorized (.newDomain action.name) = true)
    (settled : (action.plan context.time).settle store = .ok plan) :
    action.Acceptable context store := by
  obtain ⟨absent, definitions, named, slots, references, undefined, -⟩ :=
    settle_plan_eq_ok_iff.mp settled
  obtain ⟨valid, derived, distinct⟩ := checkDefinitions_nil_eq_ok_iff.mp definitions
  have checked := fun slot => Slot.check_eq_ok_iff.mp (slots slot)
  constructor
  case authorized => exact authorized
  case absent => exact absent
  case groups_valid => exact valid
  case groups_derived => exact derived
  case groups_distinct => exact distinct
  case named => simpa [Name.isEmpty] using named
  case permissions_named => exact fun slot => (checked slot).1
  case permissions_valid => exact fun slot => (checked slot).2.2
  case issue_threshold => exact (checked .issue).2.1 rfl
  case transfer_threshold => exact (checked .transfer).2.1 rfl
  case references =>
    intro slot reference listed
    simpa only [Slot.allowsOwner_iff] using references slot reference listed
  case groups_absent => exact undefined

theorem Acceptable.settle_plan (acceptable : action.Acceptable context store) :
    (action.plan context.time).settle store =
      .ok (.newDomain (action.record context.time) action.groups) := by
  refine settle_plan_eq_ok_iff.mpr ⟨acceptable.absent, ?definitions, ?named, ?slots, ?references,
    acceptable.groups_absent, rfl⟩
  case definitions =>
    exact checkDefinitions_nil_eq_ok_iff.mpr
      ⟨acceptable.groups_valid, acceptable.groups_derived, acceptable.groups_distinct⟩
  case named => simpa [Name.isEmpty] using acceptable.named
  case slots =>
    intro slot
    refine Slot.check_eq_ok_iff.mpr
      ⟨acceptable.permissions_named slot, ?_, acceptable.permissions_valid slot⟩
    cases slot with
    | issue => exact fun _ => acceptable.issue_threshold
    | transfer => exact fun _ => acceptable.transfer_threshold
    | manage => exact fun needed => absurd needed Bool.false_ne_true
  case references =>
    intro slot reference listed
    simpa only [Slot.allowsOwner_iff] using acceptable.references slot reference listed

variable (action context store)

/-- A dry run accepts what is in order and nothing else, and is to create the domain as it is given,
at the time of the block. Anything else it rejects for the first requirement that does not hold. -/
theorem dryRun_iff :
    (∀ plan, (Action.newDomain action).dryRun context store = .ok plan ↔
        action.Acceptable context store ∧
          plan = .newDomain (action.record context.time) action.groups) ∧
      ∀ failure, (Action.newDomain action).dryRun context store = .error failure ↔
        ∃ broken : Requirement, broken.IsFirstBroken (action.requirements context store) ∧
          failure = .rejected ⟨broken.reason, none⟩ := by
  unfold Action.dryRun
  rw [Check.result_run_noFaults]
  refine ⟨fun plan => ?_, fun failure => (action.judges_validate context store).eq_error_iff⟩
  rw [Action.settle_validate_eq_ok_iff]
  constructor
  · rintro ⟨authorized, settled⟩
    have acceptable := acceptable_of_settle authorized settled
    exact ⟨acceptable, Except.ok.inj (settled.symm.trans acceptable.settle_plan)⟩
  · rintro ⟨acceptable, rfl⟩
    exact ⟨acceptable.authorized, acceptable.settle_plan⟩

end NewDomain

end TokenLedger
