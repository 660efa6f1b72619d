import TokenLedger.Proofs.DryRun
import TokenLedger.Proofs.Requirements

/-!
When a domain may be changed.

An update is looked at like a new domain, except that only the permissions that it gives are, and
slot by slot: first the permission, then the groups that it refers to. `UpdateDomain.Acceptable`
says what has to hold, `UpdateDomain.requirements` in which order it is looked at, and
`UpdateDomain.dryRun_amended_iff` what comes of it. The order aside, an update that gives all three
permissions is in order just where a new domain with them would be (`NewDomain.dryRun_asUpdate`).
-/

set_option autoImplicit false

namespace TokenLedger

namespace UpdateDomain

/-- What the update supplies is in order, whatever the domain is like that it is to change. -/
structure InOrder (action : UpdateDomain) (store : Store) : Prop where
  definitions : checkDefinitions [] action.groups = .ok ()
  named : action.name.isEmpty = false
  given : ∀ slot permission, action.permission? slot = some permission →
    slot.check permission = .ok () ∧ permission.Resolves store action.groups slot.allowsOwner
  undefined : ∀ group ∈ action.groups, store.groups.contains group.id = false

theorem settle_plan_iff_inOrder {action : UpdateDomain} {store : Store} {plan : Plan} :
    action.plan.settle store = .ok plan ↔ ∃ stored, store.domains.get? action.name = some stored ∧
      action.InOrder store ∧ plan = .updateDomain (action.amended stored) action.groups := by
  rw [settle_plan_eq_ok_iff]
  refine exists_congr fun stored => and_congr_right fun _ => ?_
  constructor
  · rintro ⟨definitions, named, given, undefined, planned⟩
    exact ⟨⟨definitions, named, given, undefined⟩, planned.symm⟩
  · rintro ⟨⟨definitions, named, given, undefined⟩, planned⟩
    exact ⟨definitions, named, given, undefined, planned.symm⟩

/-- Of the store only the groups matter. -/
theorem InOrder.of_same_groups {action : UpdateDomain} {store other : Store}
    (inOrder : action.InOrder store) (same : other.groups = store.groups) :
    action.InOrder other where
  definitions := inOrder.definitions
  named := inOrder.named
  given slot permission present := by
    obtain ⟨checked, resolves⟩ := inOrder.given slot permission present
    refine ⟨checked, fun reference listed => ?_⟩
    rw [same]
    exact resolves reference listed
  undefined := same ▸ inOrder.undefined

/-- The domain may be changed as the action says. -/
structure Acceptable (action : UpdateDomain) (context : Context) (store : Store) : Prop where
  authorized : context.authorized (.domainManage action.name) = true
  present : store.domains.contains action.name = true
  groups_valid : ∀ group ∈ action.groups, group.isValid = true
  groups_derived : ∀ group ∈ action.groups, group.id = .ofKey group.key
  groups_distinct : (action.groups.map Group.id).Nodup
  named : action.name.text ≠ ""
  permissions_named : ∀ slot permission, action.permission? slot = some permission →
    permission.name.text = slot.name
  permissions_valid : ∀ slot permission, action.permission? slot = some permission →
    permission.isValid = true
  issue_threshold : ∀ permission, action.issue = some permission → permission.threshold ≠ 0
  transfer_threshold : ∀ permission, action.transfer = some permission → permission.threshold ≠ 0
  references : ∀ slot permission, action.permission? slot = some permission →
    ∀ reference ∈ permission.groups,
      if reference.id = .owner then slot = .transfer
      else ¬(store.groups.contains reference.id = true ↔
        ∃ group ∈ action.groups, group.id = reference.id)
  groups_absent : ∀ group ∈ action.groups, store.groups.contains group.id = false

/-- What is required of the permission given for a slot, if one is: first of the permission, then of
its references. -/
def slotRequirements (action : UpdateDomain) (store : Store) (slot : Slot) : List Requirement :=
  match action.permission? slot with
  | none => []
  | some permission => slot.requirements permission ++
      permission.requirements store action.groups slot.allowsOwner

/-- What is required of the action, in the order in which it is looked at. -/
def requirements (action : UpdateDomain) (context : Context) (store : Store) : List Requirement :=
  [[⟨context.authorized (.domainManage action.name) = true, .unauthorized⟩],
    [⟨store.domains.contains action.name = true, .noDomainToUpdate action.name⟩],
    Group.requirements [] action.groups,
    [⟨action.name.text ≠ "", .emptyDomainName⟩],
    Slot.all.flatMap (action.slotRequirements store),
    Group.absences store action.groups].flatten

variable (action : UpdateDomain) (context : Context) (store : Store)

theorem judges_amend (domain : Domain) (slot : Slot) :
    Judges (domain.withPermission ((action.permission? slot).getD (domain.permission slot)) slot)
      (action.slotRequirements store slot) ((action.amend domain slot).settle store) := by
  unfold amend slotRequirements
  cases action.permission? slot with
  | none =>
      have kept : domain.withPermission (domain.permission slot) slot = domain := by
        cases slot <;> rfl
      simpa [kept] using Judges.accepted
  | some permission =>
      simp only [Check.settle_bind, Check.settle_ofExcept]
      rw [← List.append_nil (_ ++ _), List.append_assoc]
      refine .bind (slot.judges_check permission) ?_
      exact .bind (permission.judges_resolve store _ _) .accepted

theorem judges_validate :
    ∃ plan, Judges plan (action.requirements context store)
      (((Action.updateDomain action).validate context).settle store) := by
  simp only [requirements, List.flatten_cons, Action.validate, Action.plan, Check.settle_bind, plan,
    Check.settle_existsDomain, Check.settle_ensure, ok_bind]
  cases found : store.domains.get? action.name with
  | none =>
      have absent := Table.contains_eq_false_iff.mpr found
      -- Nothing is planned, so any plan will do.
      refine ⟨.issueTokens [], .bind (context.judges_require store _) ?_⟩
      rw [absent]
      exact .broken Bool.false_ne_true _
  | some stored =>
      refine ⟨.updateDomain (action.amended stored) action.groups, ?_⟩
      simp only [Check.settle_ofExcept, Check.settle_readDomain, mapError_found _ found, ok_bind,
        Check.settle_foldlM]
      refine .bind (context.judges_require store _) ?_
      refine .bind (.ensure Iff.rfl _) ?_
      refine .bind (judges_checkDefinitions action.groups []) ?_
      refine .bind (.ensure (by simp [Name.isEmpty]) _) ?_
      refine .bind (.foldlM (action.judges_amend store) stored) ?_
      exact .bind (judges_checkAbsent store action.groups) .accepted

variable {action context store}

theorem Acceptable.inOrder (acceptable : action.Acceptable context store) :
    action.InOrder store where
  definitions := checkDefinitions_nil_eq_ok_iff.mpr
    ⟨acceptable.groups_valid, acceptable.groups_derived, acceptable.groups_distinct⟩
  named := by simpa [Name.isEmpty] using acceptable.named
  given := by
    intro slot permission present
    constructor
    · refine Slot.check_eq_ok_iff.mpr ⟨acceptable.permissions_named slot permission present, ?_,
        acceptable.permissions_valid slot permission present⟩
      cases slot with
      | issue => exact fun _ => acceptable.issue_threshold permission present
      | transfer => exact fun _ => acceptable.transfer_threshold permission present
      | manage => exact fun needed => absurd needed Bool.false_ne_true
    · intro reference listed
      simpa only [Slot.allowsOwner_iff] using
        acceptable.references slot permission present reference listed
  undefined := acceptable.groups_absent

theorem InOrder.acceptable (inOrder : action.InOrder store)
    (authorized : context.authorized (.domainManage action.name) = true)
    (present : store.domains.contains action.name = true) : action.Acceptable context store := by
  obtain ⟨valid, derived, distinct⟩ := checkDefinitions_nil_eq_ok_iff.mp inOrder.definitions
  have checked := fun slot permission given =>
    Slot.check_eq_ok_iff.mp (inOrder.given slot permission given).1
  constructor
  case authorized => exact authorized
  case present => exact present
  case groups_valid => exact valid
  case groups_derived => exact derived
  case groups_distinct => exact distinct
  case named => simpa [Name.isEmpty] using inOrder.named
  case permissions_named => exact fun slot permission given => (checked slot permission given).1
  case permissions_valid => exact fun slot permission given => (checked slot permission given).2.2
  case issue_threshold => exact fun permission given => (checked .issue permission given).2.1 rfl
  case transfer_threshold =>
    exact fun permission given => (checked .transfer permission given).2.1 rfl
  case references =>
    intro slot permission given reference listed
    simpa only [Slot.allowsOwner_iff] using (inOrder.given slot permission given).2 reference listed
  case groups_absent => exact inOrder.undefined

variable (action context store)

/-- A dry run accepts an update that is in order and nothing else, and is to give the stored domain
the permissions that the update supplies, and to define its groups. Anything else it rejects for the
first requirement that does not hold. -/
theorem dryRun_amended_iff :
    (∀ plan, (Action.updateDomain action).dryRun context store = .ok plan ↔
        action.Acceptable context store ∧ ∃ stored, store.domains.get? action.name = some stored ∧
          plan = .updateDomain (action.amended stored) action.groups) ∧
      ∀ failure, (Action.updateDomain action).dryRun context store = .error failure ↔
        ∃ broken : Requirement, broken.IsFirstBroken (action.requirements context store) ∧
          failure = .rejected ⟨broken.reason, none⟩ := by
  unfold Action.dryRun
  rw [Check.result_run_noFaults]
  constructor
  · intro plan
    rw [Action.settle_validate_eq_ok_iff, Action.plan, settle_plan_iff_inOrder]
    constructor
    · rintro ⟨authorized, stored, found, inOrder, planned⟩
      exact ⟨inOrder.acceptable authorized (Table.contains_of_get? found), stored, found, planned⟩
    · rintro ⟨acceptable, stored, found, planned⟩
      exact ⟨acceptable.authorized, stored, found, acceptable.inOrder, planned⟩
  · intro failure
    obtain ⟨planned, judges⟩ := action.judges_validate context store
    exact judges.eq_error_iff

end UpdateDomain

namespace NewDomain

/-- The update that gives a stored domain the permissions of a new one, and defines the same groups.
-/
def asUpdate (action : NewDomain) : UpdateDomain where
  name := action.name
  issue := some action.issue
  transfer := some action.transfer
  manage := some action.manage
  groups := action.groups

@[simp] theorem permission?_asUpdate (action : NewDomain) (slot : Slot) :
    action.asUpdate.permission? slot = some (action.permission slot) := by
  cases slot <;> rfl

variable {action : NewDomain} {store extended : Store} {context : Context}

/-- A new domain is in order where none is stored and an update with its permissions would be. -/
theorem settle_plan_iff_inOrder {time : Instant} {plan : Plan} :
    (action.plan time).settle store = .ok plan ↔
      store.domains.contains action.name = false ∧ action.asUpdate.InOrder store ∧
        plan = .newDomain (action.record time) action.groups := by
  rw [settle_plan_eq_ok_iff]
  constructor
  · rintro ⟨absent, definitions, named, slots, references, undefined, planned⟩
    refine ⟨absent, ⟨definitions, named, ?_, undefined⟩, planned.symm⟩
    intro slot permission given
    cases Option.some.inj ((action.permission?_asUpdate slot).symm.trans given)
    exact ⟨slots slot, references slot⟩
  · rintro ⟨absent, inOrder, planned⟩
    have each := fun slot => inOrder.given slot _ (action.permission?_asUpdate slot)
    exact ⟨absent, inOrder.definitions, inOrder.named, fun slot => (each slot).1,
      fun slot => (each slot).2, inOrder.undefined, planned.symm⟩

/-- Permissions and groups with which a domain may be created are those with which it may be updated
once it is there, whatever it is like. Both ways the same domain comes to have the same permissions,
and the same groups are defined. -/
theorem dryRun_asUpdate {record : Domain} (named : record.name = action.name)
    (added : store.perform (.addDomain record) = .ok extended) {later : Context}
    (creating : context.authorized (.newDomain action.name) = true)
    (managing : later.authorized (.domainManage action.name) = true) :
    let created := (Action.newDomain action).dryRun context store
    let updated := (Action.updateDomain action.asUpdate).dryRun later extended
    ((∃ plan, created = .ok plan) ↔ ∃ plan, updated = .ok plan) ∧
      ∀ creation update, created = .ok creation → updated = .ok update →
        ∃ fresh amended : Domain, creation = .newDomain fresh action.groups ∧
          update = .updateDomain amended action.groups ∧ fresh.name = amended.name ∧
          ∀ slot, fresh.permission slot = amended.permission slot := by
  intro created updated
  obtain ⟨absent, rfl⟩ := Store.perform_eq_ok_iff.mp added
  have absent : store.domains.contains action.name = false := named ▸ absent
  have found : (store.written (.addDomain record)).domains.get? action.name = some record := by
    simp [Store.written, named]
  have same : action.asUpdate.InOrder (store.written (.addDomain record)) ↔
      action.asUpdate.InOrder store :=
    ⟨fun inOrder => inOrder.of_same_groups rfl, fun inOrder => inOrder.of_same_groups rfl⟩
  have creates (plan : Plan) : created = .ok plan ↔ action.asUpdate.InOrder store ∧
      plan = .newDomain (action.record context.time) action.groups := by
    simp only [created, Action.dryRun, Check.result_run_noFaults, Action.settle_validate_eq_ok_iff,
      Action.scope, Action.plan, settle_plan_iff_inOrder, creating, absent, true_and]
  have updates (plan : Plan) : updated = .ok plan ↔ action.asUpdate.InOrder store ∧
      plan = .updateDomain (action.asUpdate.amended record) action.groups := by
    have named : action.asUpdate.name = action.name := rfl
    simp only [updated, Action.dryRun, Check.result_run_noFaults, Action.settle_validate_eq_ok_iff,
      Action.scope, Action.plan, UpdateDomain.settle_plan_iff_inOrder, named, managing, found, same,
      true_and, Option.some.injEq, exists_eq_left']
    rfl
  constructor
  · simp only [creates, updates, exists_and_left, exists_eq]
  · intro creation update fresh amended
    obtain ⟨-, rfl⟩ := (creates creation).mp fresh
    obtain ⟨-, rfl⟩ := (updates update).mp amended
    refine ⟨_, _, rfl, rfl, named.symm, fun slot => ?_⟩
    cases slot <;> rfl

theorem dryRun_asUpdate_of_definition :
    let noon : Instant := ⟨⟨2018, 5, 1, by decide⟩, 12, 0, 0, 0⟩
    let context : Context := ⟨fun _ => true, noon, .standard⟩
    let group : Group := ⟨⟨"8254c329a92850f6d539dd376f4816ee"⟩, ⟨"k"⟩, 1, [⟨⟨"k"⟩, 1⟩]⟩
    let permission (name : String) : Permission := ⟨⟨name⟩, 1, [⟨group.id, 1⟩]⟩
    let creation : NewDomain := ⟨⟨"d"⟩, ⟨"k"⟩, permission "issue", permission "transfer",
      permission "manage", [group]⟩
    let bare : Permission := ⟨⟨""⟩, 0, []⟩
    let record : Domain := ⟨⟨"d"⟩, ⟨"j"⟩, noon, bare, bare, bare⟩
    let extended := Store.empty.written (.addDomain record)
    let created := (Action.newDomain creation).dryRun context .empty
    let updated := (Action.updateDomain creation.asUpdate).dryRun context extended
    Store.empty.perform (.addDomain record) = .ok extended ∧ created.isOk = true ∧
      ∃ plan, updated = .ok plan := by
  intro noon context group permission creation bare record extended created updated
  have added : Store.empty.perform (.addDomain record) = .ok extended := rfl
  have accepted : created.isOk = true := by decide +kernel
  have planned : ∃ plan, created = .ok plan := exists_eq_ok_of_isOk accepted
  exact ⟨added, accepted, (dryRun_asUpdate rfl added rfl rfl).1.mp planned⟩

end NewDomain

end TokenLedger
