import TokenLedger.Apply
import TokenLedger.Proofs.Resolution

/-!
Which plans actions settle to.

For each kind of action one statement says exactly when it is found in order, and what it is then
about to write. The stored records that a plan copies are named, so nothing below this
module unfolds a check.
-/

set_option autoImplicit false

namespace TokenLedger

theorem Slot.forall_iff {holds : Slot → Prop} :
    (∀ slot, holds slot) ↔ holds .issue ∧ holds .transfer ∧ holds .manage := by
  constructor
  · intro all
    exact ⟨all .issue, all .transfer, all .manage⟩
  · rintro ⟨issue, transfer, manage⟩ slot
    cases slot <;> assumption

variable {store : Store} {plan : Plan}

section Domains

/-- The domain that the action is to create. -/
def NewDomain.record (action : NewDomain) (time : Instant) : Domain where
  name := action.name
  issuer := action.issuer
  issueTime := time
  issue := action.issue
  transfer := action.transfer
  manage := action.manage

theorem NewDomain.settle_plan_eq_ok_iff {action : NewDomain} {time : Instant} :
    (action.plan time).settle store = .ok plan ↔
      store.domains.contains action.name = false ∧
        checkDefinitions [] action.groups = .ok () ∧
        action.name.isEmpty = false ∧
        (∀ slot : Slot, slot.check (action.permission slot) = .ok ()) ∧
        (∀ slot : Slot, (action.permission slot).Resolves store action.groups slot.allowsOwner) ∧
        (∀ group ∈ action.groups, store.groups.contains group.id = false) ∧
        .newDomain (action.record time) action.groups = plan := by
  simp [-bind_pure_comp, NewDomain.plan, NewDomain.record, bind_eq_ok_iff, Slot.forall_iff,
    Slot.all, Permission.settle_resolve_eq_ok_iff, settle_checkAbsent_eq_ok_iff, and_assoc]

/-- The domain with the permissions that the action gives. -/
def UpdateDomain.amended (action : UpdateDomain) (domain : Domain) : Domain :=
  { domain with
    issue := action.issue.getD domain.issue
    transfer := action.transfer.getD domain.transfer
    manage := action.manage.getD domain.manage }

@[simp] theorem UpdateDomain.permission_amended (action : UpdateDomain) (domain : Domain)
    (slot : Slot) :
    (action.amended domain).permission slot =
      (action.permission? slot).getD (domain.permission slot) := by
  cases slot <;> rfl

theorem UpdateDomain.settle_amend_eq_ok_iff {action : UpdateDomain} {domain amended : Domain}
    {slot : Slot} :
    (action.amend domain slot).settle store = .ok amended ↔
      (∀ permission, action.permission? slot = some permission →
        slot.check permission = .ok () ∧
          permission.Resolves store action.groups slot.allowsOwner) ∧
        domain.withPermission ((action.permission? slot).getD (domain.permission slot)) slot =
          amended := by
  unfold UpdateDomain.amend
  cases action.permission? slot with
  | none => cases slot <;> simp [Domain.withPermission, Domain.permission]
  | some permission =>
      simp [-bind_pure_comp, bind_eq_ok_iff, Permission.settle_resolve_eq_ok_iff, and_assoc]

theorem UpdateDomain.settle_foldlM_amend_eq_ok_iff {action : UpdateDomain}
    {domain amended : Domain} :
    (Slot.all.foldlM action.amend domain).settle store = .ok amended ↔
      (∀ slot permission, action.permission? slot = some permission →
        slot.check permission = .ok () ∧
          permission.Resolves store action.groups slot.allowsOwner) ∧
        action.amended domain = amended := by
  have steps : action.amended domain =
      [Slot.issue, .transfer, .manage].foldl (fun domain slot => domain.withPermission
        ((action.permission? slot).getD (domain.permission slot)) slot) domain := rfl
  simp [Slot.all, bind_eq_ok_iff, Slot.forall_iff, steps, UpdateDomain.settle_amend_eq_ok_iff,
    and_assoc]

theorem UpdateDomain.settle_plan_eq_ok_iff {action : UpdateDomain} :
    action.plan.settle store = .ok plan ↔
      ∃ stored, store.domains.get? action.name = some stored ∧
        checkDefinitions [] action.groups = .ok () ∧
        action.name.isEmpty = false ∧
        (∀ slot permission, action.permission? slot = some permission →
          slot.check permission = .ok () ∧
            permission.Resolves store action.groups slot.allowsOwner) ∧
        (∀ group ∈ action.groups, store.groups.contains group.id = false) ∧
        .updateDomain (action.amended stored) action.groups = plan := by
  unfold UpdateDomain.plan
  cases found : store.domains.get? action.name with
  | none => simp [bind_eq_ok_iff, Table.contains, found]
  | some stored =>
      simp [-bind_pure_comp, bind_eq_ok_iff, Table.contains, found,
        UpdateDomain.settle_foldlM_amend_eq_ok_iff, settle_checkAbsent_eq_ok_iff, and_assoc]

end Domains

section Tokens

/-- The tokens that the action is to issue. -/
def IssueTokens.tokens (action : IssueTokens) : List Token :=
  action.names.map fun name => ⟨action.domain, name, action.owner⟩

theorem settle_checkTokenNames_eq_ok_iff {domain : Name} {earlier names : List Name} :
    (checkTokenNames domain earlier names).settle store = .ok () ↔
      (∀ name ∈ names, name.isEmpty = false ∧ store.tokens.contains ⟨domain, name⟩ = false) ∧
        Distinct earlier names := by
  induction names generalizing earlier with
  | nil => simp [checkTokenNames]
  | cons name rest inductionHypothesis =>
      simp only [checkTokenNames, Check.settle_bind, Check.settle_ensure, Check.settle_existsToken,
        bind_eq_ok_iff, ensure_eq_ok_iff, ok_bind, inductionHypothesis, exists_unit_iff,
        Bool.not_eq_true', decide_eq_true_eq, List.forall_mem_cons, distinct_cons_iff]
      constructor
      · rintro ⟨named, fresh, unissued, others, distinct⟩
        exact ⟨⟨⟨named, unissued⟩, others⟩, fresh, distinct⟩
      · rintro ⟨⟨⟨named, unissued⟩, others⟩, fresh, distinct⟩
        exact ⟨named, fresh, unissued, others, distinct⟩

theorem IssueTokens.settle_plan_eq_ok_iff {action : IssueTokens} :
    action.plan.settle store = .ok plan ↔
      store.domains.contains action.domain = true ∧
        action.owner.isEmpty = false ∧
        (∀ name ∈ action.names, name.isEmpty = false ∧
          store.tokens.contains ⟨action.domain, name⟩ = false) ∧
        action.names.Nodup ∧
        .issueTokens action.tokens = plan := by
  simp [-bind_pure_comp, IssueTokens.plan, IssueTokens.tokens, bind_eq_ok_iff,
    settle_checkTokenNames_eq_ok_iff, and_assoc]

theorem TransferToken.settle_plan_eq_ok_iff {action : TransferToken} :
    action.plan.settle store = .ok plan ↔
      store.tokens.contains ⟨action.domain, action.name⟩ = true ∧
        .transferToken action.domain action.name action.owner = plan := by
  simp [-bind_pure_comp, TransferToken.plan, bind_eq_ok_iff]

end Tokens

theorem UpdateGroup.settle_plan_eq_ok_iff {action : UpdateGroup} :
    action.plan.settle store = .ok plan ↔
      ∃ stored, store.groups.get? action.id = some stored ∧
        action.keys.isEmpty = false ∧
        { stored with threshold := action.threshold, keys := action.keys : Group }.isValid = true ∧
        .updateGroup { stored with threshold := action.threshold, keys := action.keys } = plan := by
  unfold UpdateGroup.plan
  cases found : store.groups.get? action.id with
  | none => simp [bind_eq_ok_iff, Table.contains, found]
  | some stored => simp [-bind_pure_comp, bind_eq_ok_iff, Table.contains, found]

section Accounts

/-- A configuration that passes its check names a creator and starts nobody in debt. -/
theorem Config.check_eq_ok_iff {config : Config} :
    config.check = .ok () ↔ config.systemAccount.text ≠ "" ∧ 0 ≤ config.initialBalance.val := by
  unfold check
  by_cases unnamed : config.systemAccount.text = ""
  · simp [Name.isEmpty, unnamed]
  · by_cases debt : config.initialBalance.val < 0
    · simp [Name.isEmpty, unnamed, debt]
    · simp [Name.isEmpty, unnamed, debt, Int.not_lt.mp debt]

/-- The account that the action is to open. -/
def NewAccount.record (action : NewAccount) (time : Instant) (config : Config) : Account where
  name := action.name
  creator := config.systemAccount
  createTime := time
  balance := config.initialBalance
  frozenBalance := .zero
  owner := action.owner

theorem NewAccount.settle_plan_eq_ok_iff {action : NewAccount} {time : Instant} {config : Config} :
    (action.plan time config).settle store = .ok plan ↔
      action.name.isEmpty = false ∧
        store.accounts.contains action.name = false ∧
        config.check = .ok () ∧
        .newAccount (action.record time config) = plan := by
  simp [-bind_pure_comp, NewAccount.plan, NewAccount.record, bind_eq_ok_iff]

theorem UpdateOwner.settle_plan_eq_ok_iff {action : UpdateOwner} :
    action.plan.settle store = .ok plan ↔
      ∃ stored, store.accounts.get? action.name = some stored ∧
        action.owner.isEmpty = false ∧
        .updateOwner { stored with owner := action.owner } = plan := by
  unfold UpdateOwner.plan
  cases found : store.accounts.get? action.name with
  | none => simp [bind_eq_ok_iff, Table.contains, found]
  | some stored => simp [-bind_pure_comp, bind_eq_ok_iff, Table.contains, found]

theorem TransferBalance.settle_plan_eq_ok_iff {action : TransferBalance} :
    action.plan.settle store = .ok plan ↔
      ∃ source target debited credited,
        store.accounts.get? action.source = some source ∧
        store.accounts.get? action.target = some target ∧
        action.amount.isPositive = true ∧
        action.source ≠ action.target ∧
        action.amount ≤ source.balance ∧
        source.balance.sub? action.amount = some debited ∧
        target.balance.add? action.amount = some credited ∧
        .transferBalance { source with balance := debited } { target with balance := credited } =
          plan := by
  unfold TransferBalance.plan
  cases foundSource : store.accounts.get? action.source with
  | none => simp [bind_eq_ok_iff, Table.contains, foundSource]
  | some source =>
      cases foundTarget : store.accounts.get? action.target with
      | none => simp [bind_eq_ok_iff, Table.contains, foundSource, foundTarget]
      | some target =>
          cases debit : source.balance.sub? action.amount <;>
            cases credit : target.balance.add? action.amount <;>
              simp [-bind_pure_comp, bind_eq_ok_iff, Table.contains, foundSource, foundTarget,
                debit, credit]

/-- The two accounts of a transfer, as they are stored and as they are to be after it. -/
structure TransferBalance.Moves (action : TransferBalance) (store : Store)
    (source target debited credited : Account) : Prop where
  source_stored : store.accounts.get? action.source = some source
  target_stored : store.accounts.get? action.target = some target
  different : action.source ≠ action.target
  positive : 0 < action.amount.val
  debited_eq : debited = { source with balance := debited.balance }
  credited_eq : credited = { target with balance := credited.balance }
  debited_val : debited.balance.val = source.balance.val - action.amount.val
  credited_val : credited.balance.val = target.balance.val + action.amount.val

namespace TransferBalance.Moves

variable {action : TransferBalance} {source target debited credited : Account}

theorem source_name (moves : action.Moves store source target debited credited) :
    source.name = action.source := Table.key_of_get? moves.source_stored

theorem target_name (moves : action.Moves store source target debited credited) :
    target.name = action.target := Table.key_of_get? moves.target_stored

theorem debited_name (moves : action.Moves store source target debited credited) :
    debited.name = action.source := by
  rw [moves.debited_eq]
  exact moves.source_name

theorem credited_name (moves : action.Moves store source target debited credited) :
    credited.name = action.target := by
  rw [moves.credited_eq]
  exact moves.target_name

end TransferBalance.Moves

theorem TransferBalance.moves_of_settle {action : TransferBalance}
    (settled : action.plan.settle store = .ok plan) :
    ∃ source target debited credited, action.Moves store source target debited credited ∧
      .transferBalance debited credited = plan := by
  obtain ⟨source, target, debited, credited, foundSource, foundTarget, positive, different, -,
    debit, credit, rfl⟩ := TransferBalance.settle_plan_eq_ok_iff.mp settled
  refine ⟨source, target, _, _, ⟨foundSource, foundTarget, different, ?_, rfl, rfl, ?_, ?_⟩, rfl⟩
  · simpa [Amount.isPositive] using positive
  · exact (Amount.sub?_eq_some_iff.mp debit).symm
  · exact (Amount.add?_eq_some_iff.mp credit).symm

end Accounts

end TokenLedger
