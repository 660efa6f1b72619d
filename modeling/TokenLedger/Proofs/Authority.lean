import TokenLedger.Proofs.Footprint

/-!
No record changes without the authority for it.

The store before an action is compared with the store after it, record by record. That holds
for actions that fail as well, and when the store fails half-way through the writes.
-/

set_option autoImplicit false

namespace TokenLedger

/-- Every difference between two stores is covered by a scope that is authorized. -/
structure Warranted (authorized : Scope → Bool) (action : Action) (before after : Store) :
    Prop where
  domainCreated : ∀ name created, before.domains.get? name = none →
    after.domains.get? name = some created → authorized (.newDomain name) = true
  domainChanged : ∀ name stored, before.domains.get? name = some stored →
    after.domains.get? name ≠ some stored → authorized (.domainManage name) = true
  groupCreated : ∀ id created, before.groups.get? id = none →
    after.groups.get? id = some created →
      (∃ submitted, action = .newDomain submitted ∧
        authorized (.newDomain submitted.name) = true) ∨
      ∃ submitted, action = .updateDomain submitted ∧
        authorized (.domainManage submitted.name) = true
  groupChanged : ∀ id stored, before.groups.get? id = some stored →
    after.groups.get? id ≠ some stored → authorized (.group id) = true
  tokenCreated : ∀ domain name created, before.tokens.get? ⟨domain, name⟩ = none →
    after.tokens.get? ⟨domain, name⟩ = some created → authorized (.domainIssue domain) = true
  tokenChanged : ∀ domain name stored, before.tokens.get? ⟨domain, name⟩ = some stored →
    after.tokens.get? ⟨domain, name⟩ ≠ some stored → authorized (.token domain name) = true
  accountCreated : ∀ name created, before.accounts.get? name = none →
    after.accounts.get? name = some created → authorized (.account name) = true
  /-- Without authority over it, an account keeps its owner and loses no balance. -/
  accountChanged : ∀ name stored, before.accounts.get? name = some stored →
    authorized (.account name) = false →
      ∃ kept, after.accounts.get? name = some kept ∧ kept.owner = stored.owner ∧
        stored.balance ≤ kept.balance
  /-- What an account gains, another one pays that is authorized to. -/
  balanceIncreased : ∀ name stored credited, before.accounts.get? name = some stored →
    after.accounts.get? name = some credited → stored.balance < credited.balance →
      ∃ payer paid debited, payer ≠ name ∧ authorized (.account payer) = true ∧
        before.accounts.get? payer = some paid ∧ after.accounts.get? payer = some debited ∧
        paid.balance.val - debited.balance.val = credited.balance.val - stored.balance.val

theorem Warranted.refl (authorized : Scope → Bool) (action : Action) (store : Store) :
    Warranted authorized action store store where
  domainCreated := by simp_all
  domainChanged := by simp_all
  groupCreated := by simp_all
  groupChanged := by simp_all
  tokenCreated := by simp_all
  tokenChanged := by simp_all
  accountCreated := by simp_all
  accountChanged name stored found _ := ⟨stored, found, rfl, Int.le_refl _⟩
  balanceIncreased name stored credited found again more := by
    cases Option.some.inj (found.symm.trans again)
    exact absurd more (Int.lt_irrefl _)

section Transfers

variable {action : TransferBalance} {store : Store} {source target debited credited : Account}
  {done rest : List Write}

/-- A transfer that the store may have left half made leaves the accounts of others alone, takes
from the source at most, and gives to the target what it took. -/
theorem TransferBalance.Moves.get?_accounts
    (moves : action.Moves store source target debited credited)
    (split : [Write.updateAccount debited, .updateAccount credited] = done ++ rest) (name : Name) :
    (store.rewritten done).accounts.get? name = store.accounts.get? name ∨
      ((store.rewritten done).accounts.get? action.source = some debited ∧
        (name = action.source ∨
          name = action.target ∧
            (store.rewritten done).accounts.get? action.target = some credited)) := by
  rcases List.cons_eq_append_iff.mp split with ⟨rfl, -⟩ | ⟨others, rfl, later⟩
  · exact .inl rfl
  rcases List.singleton_eq_append_iff.mp later with ⟨rfl, -⟩ | ⟨rfl, -⟩
  · by_cases same : name = action.source
    · right
      simp [Store.written, moves.debited_name, same]
    · left
      simp [Store.written, moves.debited_name, Ne.symm same]
  · by_cases sameSource : name = action.source
    · right
      simp [Store.written, moves.debited_name, moves.credited_name, moves.different.symm,
        sameSource]
    · by_cases sameTarget : name = action.target
      · right
        simp [Store.written, moves.debited_name, moves.credited_name, moves.different.symm,
          sameTarget]
      · left
        simp [Store.written, moves.debited_name, moves.credited_name, Ne.symm sameSource,
          Ne.symm sameTarget]

end Transfers

/-- A handover that the store may not have made leaves all balances alone. -/
theorem UpdateOwner.get?_accounts {action : UpdateOwner} {store : Store} {owned : Account}
    {done rest : List Write} (found : store.accounts.get? action.name = some owned)
    (split : [Write.updateAccount { owned with owner := action.owner }] = done ++ rest)
    {name : Name} {stored kept : Account} (before : store.accounts.get? name = some stored)
    (after : (store.rewritten done).accounts.get? name = some kept) :
    kept.balance = stored.balance := by
  rcases List.singleton_eq_append_iff.mp split with ⟨rfl, -⟩ | ⟨rfl, -⟩
  · cases Option.some.inj (before.symm.trans after)
    rfl
  · have same : owned.name = action.name := Table.key_of_get? found
    by_cases here : action.name = name
    · subst here
      cases Option.some.inj (before.symm.trans found)
      simp only [Store.rewritten_cons, Store.rewritten_nil, Store.written, Table.get?_insert,
        key_account, same, if_pos] at after
      cases Option.some.inj after
      rfl
    · simp only [Store.rewritten_cons, Store.rewritten_nil, Store.written, Table.get?_insert,
        key_account, same, if_neg here] at after
      cases Option.some.inj (before.symm.trans after)
      rfl

namespace Action

section Accounts

variable {context : Context} {action : Action} {store : Store} {plan : Plan}
  {done rest : List Write} {name : Name} {stored : Account}

theorem scope_of_account_target (target : .account name ∈ action.targets) :
    action.scope = .account name ∨ ∃ transfer, action = .transferBalance transfer ∧
      name = transfer.target := by
  cases action with
  | newAccount action | updateOwner action =>
      have same : name = action.name := by simpa [targets] using target
      exact .inl (congrArg Scope.account same.symm)
  | transferBalance action =>
      have either : name = action.source ∨ name = action.target := by simpa [targets] using target
      rcases either with rfl | rfl
      · exact .inl rfl
      · exact .inr ⟨action, rfl, rfl⟩
  | newDomain | updateDomain | issueTokens | transferToken | updateGroup =>
      simp [targets] at target

/-- An account that the action does not answer for is the target of a transfer, if it is touched at
all, and can only gain. -/
theorem account_kept_of_foreign (settled : (action.plan context).settle store = .ok plan)
    (split : plan.writes = done ++ rest) (found : store.accounts.get? name = some stored)
    (changed : (store.rewritten done).accounts.get? name ≠ some stored)
    (target : .account name ∈ action.targets) (foreign : action.scope ≠ .account name) :
    ∃ kept, (store.rewritten done).accounts.get? name = some kept ∧ kept.owner = stored.owner ∧
      stored.balance ≤ kept.balance := by
  rcases scope_of_account_target target with scope | ⟨transfer, rfl, rfl⟩
  · exact absurd scope foreign
  obtain ⟨source, receiver, debited, credited, moves, rfl⟩ :=
    TransferBalance.moves_of_settle settled
  cases Option.some.inj (found.symm.trans moves.target_stored)
  rcases moves.get?_accounts split transfer.target with same | ⟨-, self | ⟨-, received⟩⟩
  · exact absurd (same.trans found) changed
  · exact absurd self.symm moves.different
  · refine ⟨credited, received, ?_, ?_⟩
    · rw [moves.credited_eq]
    · have gained := moves.credited_val
      have positive := moves.positive
      rw [Amount.le_iff_val]
      omega

/-- What an account gains, the account that the action answers for has paid. -/
theorem payer_of_gain (settled : (action.plan context).settle store = .ok plan)
    (split : plan.writes = done ++ rest) {increased : Account}
    (found : store.accounts.get? name = some stored)
    (there : (store.rewritten done).accounts.get? name = some increased)
    (target : .account name ∈ action.targets) (more : stored.balance < increased.balance) :
    ∃ payer paid debited, payer ≠ name ∧ action.scope = .account payer ∧
      store.accounts.get? payer = some paid ∧
      (store.rewritten done).accounts.get? payer = some debited ∧
      paid.balance.val - debited.balance.val = increased.balance.val - stored.balance.val := by
  rw [Amount.lt_iff_val] at more
  cases action with
  | newAccount action =>
      obtain ⟨-, fresh, -⟩ := NewAccount.settle_plan_eq_ok_iff.mp settled
      have same : name = action.name := by simpa [targets] using target
      simp [Table.contains, ← same, found] at fresh
  | updateOwner action =>
      obtain ⟨owned, foundOwned, -, rfl⟩ := UpdateOwner.settle_plan_eq_ok_iff.mp settled
      have same := UpdateOwner.get?_accounts foundOwned split found there
      rw [same] at more
      exact absurd more (Int.lt_irrefl _)
  | transferBalance transfer =>
      obtain ⟨source, receiver, debited, credited, moves, rfl⟩ :=
        TransferBalance.moves_of_settle settled
      have lost := moves.debited_val
      have received := moves.credited_val
      have positive := moves.positive
      rcases moves.get?_accounts split name with same | ⟨paid, rfl | ⟨rfl, got⟩⟩
      · cases Option.some.inj (found.symm.trans (same.symm.trans there))
        exact absurd more (Int.lt_irrefl _)
      · cases Option.some.inj (found.symm.trans moves.source_stored)
        cases Option.some.inj (paid.symm.trans there)
        omega
      · cases Option.some.inj (found.symm.trans moves.target_stored)
        cases Option.some.inj (got.symm.trans there)
        exact ⟨transfer.source, source, debited, moves.different, rfl, moves.source_stored, paid,
          by omega⟩
  | newDomain | updateDomain | issueTokens | transferToken | updateGroup =>
      simp [targets] at target

end Accounts

/-- Whatever an action does to the store, even if it fails, is covered by what it is authorized
for. -/
theorem apply_warranted {φ : Type} [FaultSource φ] (context : Context) (action : Action)
    (store : Store) (faults : φ) :
    Warranted context.authorized action store (action.apply context store faults).store := by
  have target (key : RecordKey) (changed : (action.apply context store faults).store.lookup? key ≠
      store.lookup? key) : key ∈ action.targets := mem_targets_of_changed changed
  rcases action.apply_cases context store faults with
    refuses | ⟨plan, done, rest, settled, split, makes⟩
  · rw [refuses.store]
    exact .refl context.authorized action store
  obtain ⟨authorized, planned⟩ := settle_validate_eq_ok_iff.mp settled
  rw [makes.store] at target ⊢
  constructor
  case domainCreated =>
    intro name created missing there
    have touched := target (.domain name) (by simp [Store.lookup?, missing, there])
    rcases scope_of_domain_target planned touched with ⟨scope, -⟩ | ⟨-, stored, found⟩
    · exact scope ▸ authorized
    · simp [missing] at found
  case domainChanged =>
    intro name stored found changed
    have touched := target (.domain name) (by simp [Store.lookup?, found, changed])
    rcases scope_of_domain_target planned touched with ⟨-, missing⟩ | ⟨scope, -⟩
    · simp [missing] at found
    · exact scope ▸ authorized
  case groupCreated =>
    intro id created missing there
    have touched := target (.group id) (by simp [Store.lookup?, missing, there])
    rcases scope_of_group_target planned touched with
      ⟨-, ⟨submitted, rfl⟩ | ⟨submitted, rfl⟩⟩ | ⟨-, stored, found⟩
    · exact .inl ⟨submitted, rfl, authorized⟩
    · exact .inr ⟨submitted, rfl, authorized⟩
    · simp [missing] at found
  case groupChanged =>
    intro id stored found changed
    have touched := target (.group id) (by simp [Store.lookup?, found, changed])
    rcases scope_of_group_target planned touched with ⟨missing, -⟩ | ⟨scope, -⟩
    · simp [missing] at found
    · exact scope ▸ authorized
  case tokenCreated =>
    intro domain name created missing there
    have touched := target (.token ⟨domain, name⟩) (by simp [Store.lookup?, missing, there])
    rcases scope_of_token_target planned touched with ⟨scope, -⟩ | ⟨-, stored, found⟩
    · exact scope ▸ authorized
    · simp [missing] at found
  case tokenChanged =>
    intro domain name stored found changed
    have touched := target (.token ⟨domain, name⟩) (by simp [Store.lookup?, found, changed])
    rcases scope_of_token_target planned touched with ⟨-, missing⟩ | ⟨scope, -⟩
    · simp [missing] at found
    · exact scope ▸ authorized
  case accountCreated =>
    intro name created missing there
    have touched := target (.account name) (by simp [Store.lookup?, missing, there])
    rcases scope_of_account_target touched with scope | ⟨transfer, rfl, rfl⟩
    · exact scope ▸ authorized
    · obtain ⟨_, _, _, _, moves, -⟩ := TransferBalance.moves_of_settle planned
      simp [moves.target_stored] at missing
  case accountChanged =>
    intro name stored found unauthorized
    by_cases same : (store.rewritten done).accounts.get? name = some stored
    · exact ⟨stored, same, rfl, Int.le_refl _⟩
    have touched := target (.account name) (by simp [Store.lookup?, found, same])
    apply account_kept_of_foreign planned split found same touched
    intro scope
    rw [scope, unauthorized] at authorized
    contradiction
  case balanceIncreased =>
    intro name stored increased found there more
    have touched := target (.account name) (by
      intro unchanged
      have same := Option.map_injective (fun _ _ => Entry.account.inj) unchanged
      cases Option.some.inj (found.symm.trans (same.symm.trans there))
      exact Int.lt_irrefl _ more)
    obtain ⟨payer, paid, debited, other, scope, stored, left, balance⟩ :=
      payer_of_gain planned split found there touched more
    exact ⟨payer, paid, debited, other, scope ▸ authorized, stored, left, balance⟩

end Action

end TokenLedger
