import TokenLedger.Proofs.DryRun
import TokenLedger.Proofs.Footprint

/-!
What one step makes of each record.

An action in order keeps a record, adds it or revises it. What it may add and what it may make of a
stored record is said without the store (`Action.Adds`, `Action.Revises`); nothing removes a record.
What a step preserves follows from these three cases (`Action.apply_successions`).
-/

set_option autoImplicit false

namespace TokenLedger

/-- The records that an action in order may add. -/
inductive Action.Adds (context : Context) : Action → Entry → Prop where
  | domain (action : NewDomain) :
      Adds context (.newDomain action) (.domain (action.record context.time))
  | groupOfNew (action : NewDomain) {group : Group} (defined : group ∈ action.groups) :
      Adds context (.newDomain action) (.group group)
  | groupOfUpdate (action : UpdateDomain) {group : Group} (defined : group ∈ action.groups) :
      Adds context (.updateDomain action) (.group group)
  | token (action : IssueTokens) {name : Name} (listed : name ∈ action.names)
      (owned : action.owner ≠ []) :
      Adds context (.issueTokens action) (.token ⟨action.domain, name, action.owner⟩)
  | account (action : NewAccount) :
      Adds context (.newAccount action) (.account (action.record context.time context.config))

/-- What an action in order may make of a stored record. -/
inductive Action.Revises : Action → Entry → Entry → Prop where
  | permissions (action : UpdateDomain) {stored : Domain} (named : stored.name = action.name) :
      Revises (.updateDomain action) (.domain stored) (.domain (action.amended stored))
  | keys (action : UpdateGroup) {stored : Group} (named : stored.id = action.id) :
      Revises (.updateGroup action) (.group stored)
        (.group { stored with threshold := action.threshold, keys := action.keys })
  | tokenOwner (action : TransferToken) {stored : Token}
      (named : stored.key = ⟨action.domain, action.name⟩) :
      Revises (.transferToken action) (.token stored) (.token { stored with owner := action.owner })
  | accountOwner (action : UpdateOwner) {stored : Account} (named : stored.name = action.name)
      (owned : action.owner ≠ []) :
      Revises (.updateOwner action) (.account stored)
        (.account { stored with owner := action.owner })
  | balance (action : TransferBalance) {stored : Account}
      (named : stored.name = action.source ∨ stored.name = action.target) (balance : Amount) :
      Revises (.transferBalance action) (.account stored) (.account { stored with balance })

/-- What became of the record under a key. -/
inductive Succession (context : Context) (action : Action) (before after : Store)
    (key : RecordKey) : Prop where
  | kept (same : after.lookup? key = before.lookup? key)
  | added {entry : Entry} (missing : before.lookup? key = none)
      (there : after.lookup? key = some entry) (adds : action.Adds context entry)
  | revised {stored entry : Entry} (found : before.lookup? key = some stored)
      (there : after.lookup? key = some entry) (revises : action.Revises stored entry)

theorem Store.key_of_lookup? {store : Store} {key : RecordKey} {entry : Entry}
    (found : store.lookup? key = some entry) : entry.key = key := by
  cases key with
  | domain name =>
      obtain ⟨domain, there, rfl⟩ := Option.map_eq_some_iff.mp found
      exact congrArg RecordKey.domain (Table.key_of_get? there)
  | group id =>
      obtain ⟨group, there, rfl⟩ := Option.map_eq_some_iff.mp found
      exact congrArg RecordKey.group (Table.key_of_get? there)
  | token key =>
      obtain ⟨token, there, rfl⟩ := Option.map_eq_some_iff.mp found
      exact congrArg RecordKey.token (Table.key_of_get? there)
  | account name =>
      obtain ⟨account, there, rfl⟩ := Option.map_eq_some_iff.mp found
      exact congrArg RecordKey.account (Table.key_of_get? there)

section Steps

variable {context : Context} {action : Action} {before after store : Store} {entries : List Entry}
  {plan : Plan}

/-- If a plan files these entries, then it is enough to tell where each of them comes from. -/
theorem Filed.succession (filed : Filed before after entries)
    (each : ∀ entry ∈ entries, (before.lookup? entry.key = none ∧ action.Adds context entry) ∨
      ∃ stored, before.lookup? entry.key = some stored ∧ action.Revises stored entry)
    (key : RecordKey) : Succession context action before after key := by
  by_cases touched : ∃ entry ∈ entries, entry.key = key
  · obtain ⟨entry, member, rfl⟩ := touched
    have there := filed.filed entry member
    rcases each entry member with ⟨missing, adds⟩ | ⟨stored, found, revises⟩
    · exact .added missing there adds
    · exact .revised found there revises
  · refine .kept (filed.kept key ?_)
    intro entry member same
    exact touched ⟨entry, member, same⟩

theorem Action.succession_of_settle (settled : (action.plan context).settle store = .ok plan)
    (key : RecordKey) : Succession context action store (store.rewritten plan.writes) key := by
  have carriedOut := Plan.carriedOut_of_settle settled
  cases action with
  | newDomain action =>
      obtain ⟨fresh, -, -, -, -, absent, rfl⟩ := NewDomain.settle_plan_eq_ok_iff.mp settled
      refine Filed.succession carriedOut ?_ key
      intro entry member
      left
      rcases List.mem_cons.mp member with rfl | member
      · have missing := Table.contains_eq_false_iff.mp fresh
        exact ⟨congrArg (Option.map Entry.domain) missing, .domain action⟩
      · obtain ⟨group, defined, rfl⟩ := List.mem_map.mp member
        have missing := Table.contains_eq_false_iff.mp (absent group defined)
        exact ⟨congrArg (Option.map Entry.group) missing, .groupOfNew action defined⟩
  | updateDomain action =>
      obtain ⟨stored, found, -, -, -, absent, rfl⟩ := UpdateDomain.settle_plan_eq_ok_iff.mp settled
      have named : stored.name = action.name := Table.key_of_get? found
      refine Filed.succession carriedOut ?_ key
      intro entry member
      rcases List.mem_cons.mp member with rfl | member
      · have there : store.domains.get? stored.name = some stored := named ▸ found
        exact .inr ⟨.domain stored, Store.lookup?_domain_iff.mpr there, .permissions action named⟩
      · obtain ⟨group, defined, rfl⟩ := List.mem_map.mp member
        have missing := Table.contains_eq_false_iff.mp (absent group defined)
        exact .inl ⟨congrArg (Option.map Entry.group) missing, .groupOfUpdate action defined⟩
  | issueTokens action =>
      obtain ⟨-, owned, fresh, -, rfl⟩ := IssueTokens.settle_plan_eq_ok_iff.mp settled
      refine Filed.succession carriedOut ?_ key
      intro entry member
      obtain ⟨token, issued, rfl⟩ := List.mem_map.mp member
      obtain ⟨name, listed, rfl⟩ := List.mem_map.mp issued
      have missing := Table.contains_eq_false_iff.mp (fresh name listed).2
      exact .inl ⟨congrArg (Option.map Entry.token) missing,
        .token action listed (by simpa using owned)⟩
  | transferToken action =>
      obtain ⟨-, rfl⟩ := TransferToken.settle_plan_eq_ok_iff.mp settled
      obtain ⟨stored, found, filed⟩ := carriedOut
      have named : stored.key = ⟨action.domain, action.name⟩ := Table.key_of_get? found
      refine filed.succession (List.forall_mem_singleton.mpr (.inr ?_)) key
      have there : store.tokens.get? stored.key = some stored := named ▸ found
      exact ⟨.token stored, Store.lookup?_token_iff.mpr there, .tokenOwner action named⟩
  | updateGroup action =>
      obtain ⟨stored, found, -, -, rfl⟩ := UpdateGroup.settle_plan_eq_ok_iff.mp settled
      have named : stored.id = action.id := Table.key_of_get? found
      refine Filed.succession carriedOut (List.forall_mem_singleton.mpr (.inr ?_)) key
      have there : store.groups.get? stored.id = some stored := named ▸ found
      exact ⟨.group stored, Store.lookup?_group_iff.mpr there, .keys action named⟩
  | newAccount action =>
      obtain ⟨-, fresh, -, rfl⟩ := NewAccount.settle_plan_eq_ok_iff.mp settled
      refine Filed.succession carriedOut (List.forall_mem_singleton.mpr (.inl ?_)) key
      have missing := Table.contains_eq_false_iff.mp fresh
      exact ⟨congrArg (Option.map Entry.account) missing, .account action⟩
  | updateOwner action =>
      obtain ⟨stored, found, owned, rfl⟩ := UpdateOwner.settle_plan_eq_ok_iff.mp settled
      have named : stored.name = action.name := Table.key_of_get? found
      refine Filed.succession carriedOut (List.forall_mem_singleton.mpr (.inr ?_)) key
      have there : store.accounts.get? stored.name = some stored := named ▸ found
      exact ⟨.account stored, Store.lookup?_account_iff.mpr there,
        .accountOwner action named (by simpa using owned)⟩
  | transferBalance action =>
      obtain ⟨source, target, debited, credited, foundSource, foundTarget, -, -, -, -, -, rfl⟩ :=
        TransferBalance.settle_plan_eq_ok_iff.mp settled
      have sourceNamed : source.name = action.source := Table.key_of_get? foundSource
      have targetNamed : target.name = action.target := Table.key_of_get? foundTarget
      refine Filed.succession carriedOut (List.forall_mem_cons.mpr ⟨.inr ?_,
        List.forall_mem_singleton.mpr (.inr ?_)⟩) key
      · have there : store.accounts.get? source.name = some source := sourceNamed ▸ foundSource
        exact ⟨.account source, Store.lookup?_account_iff.mpr there,
          .balance action (.inl sourceNamed) debited⟩
      · have there : store.accounts.get? target.name = some target := targetNamed ▸ foundTarget
        exact ⟨.account target, Store.lookup?_account_iff.mpr there,
          .balance action (.inr targetNamed) credited⟩

/-- Without faults an action either fails and leaves the store as it is, or it was authorized and
keeps, adds or revises each record. -/
theorem Action.apply_successions (context : Context) (action : Action) (store : Store) :
    ((∃ failure, (action.apply context store NoFaults.mk).result = .error failure) ∧
        (action.apply context store NoFaults.mk).store = store) ∨
      ((action.apply context store NoFaults.mk).result = .ok () ∧
        context.authorized action.scope = true ∧
        ∀ key,
          Succession context action store (action.apply context store NoFaults.mk).store key) := by
  rcases action.apply_noFaults_cases context store with
    ⟨failure, -, failed, same⟩ | ⟨plan, settled, finished, left⟩
  · exact .inl ⟨⟨_, failed⟩, same⟩
  · obtain ⟨authorized, planned⟩ := settle_validate_eq_ok_iff.mp settled
    rw [left]
    exact .inr ⟨finished, authorized, succession_of_settle planned⟩

/-- A stored record that an action changed was revised by it. -/
theorem Action.revises_of_changed (key : RecordKey) {stored entry : Entry}
    (found : store.lookup? key = some stored)
    (there : (action.apply context store NoFaults.mk).store.lookup? key = some entry)
    (changed : entry ≠ stored) :
    (action.apply context store NoFaults.mk).result = .ok () ∧
      context.authorized action.scope = true ∧ action.Revises stored entry := by
  rcases action.apply_successions context store with ⟨-, same⟩ | ⟨finished, authorized, successions⟩
  · rw [same, found] at there
    exact absurd (Option.some.inj there).symm changed
  · refine ⟨finished, authorized, ?_⟩
    cases successions key with
    | kept same =>
        rw [there, found] at same
        exact absurd (Option.some.inj same) changed
    | added missing _ _ => exact nomatch found.symm.trans missing
    | revised found' there' revises =>
        cases Option.some.inj (found.symm.trans found')
        cases Option.some.inj (there.symm.trans there')
        exact revises

end Steps

/-!
The same table by table: how a stored record differs from what an action made of it.
-/

namespace Action

variable {context : Context} {action : Action} {store : Store}

theorem domain_revised {name : Name} {stored kept : Domain}
    (found : store.domains.get? name = some stored)
    (there : (action.apply context store NoFaults.mk).store.domains.get? name = some kept)
    (changed : kept ≠ stored) :
    (action.apply context store NoFaults.mk).result = .ok () ∧
      context.authorized (.domainManage name) = true ∧
      ∃ update, action = .updateDomain update ∧ update.name = name ∧
        kept = update.amended stored := by
  obtain ⟨finished, authorized, revises⟩ := revises_of_changed (.domain name)
    (Store.lookup?_domain_iff.mpr found) (Store.lookup?_domain_iff.mpr there)
    fun same => changed (Entry.domain.inj same)
  cases revises with
  | permissions update named =>
      obtain rfl : update.name = name := named.symm.trans (Table.key_of_get? found)
      exact ⟨finished, authorized, update, rfl, rfl, rfl⟩

theorem group_revised {id : GroupId} {stored kept : Group}
    (found : store.groups.get? id = some stored)
    (there : (action.apply context store NoFaults.mk).store.groups.get? id = some kept)
    (changed : kept ≠ stored) :
    (action.apply context store NoFaults.mk).result = .ok () ∧
      ∃ update, action = .updateGroup update ∧ update.id = id ∧
        kept = { stored with threshold := update.threshold, keys := update.keys } := by
  obtain ⟨finished, -, revises⟩ := revises_of_changed (.group id)
    (Store.lookup?_group_iff.mpr found) (Store.lookup?_group_iff.mpr there)
    fun same => changed (Entry.group.inj same)
  cases revises with
  | keys update named =>
      exact ⟨finished, update, rfl, named.symm.trans (Table.key_of_get? found), rfl⟩

theorem token_revised {key : TokenKey} {stored kept : Token}
    (found : store.tokens.get? key = some stored)
    (there : (action.apply context store NoFaults.mk).store.tokens.get? key = some kept)
    (changed : kept ≠ stored) :
    (action.apply context store NoFaults.mk).result = .ok () ∧
      ∃ transfer, action = .transferToken transfer ∧ ⟨transfer.domain, transfer.name⟩ = key ∧
        kept = { stored with owner := transfer.owner } := by
  obtain ⟨finished, -, revises⟩ := revises_of_changed (.token key)
    (Store.lookup?_token_iff.mpr found) (Store.lookup?_token_iff.mpr there)
    fun same => changed (Entry.token.inj same)
  cases revises with
  | tokenOwner transfer named =>
      exact ⟨finished, transfer, rfl, named.symm.trans (Table.key_of_get? found), rfl⟩

theorem account_revised {name : Name} {stored kept : Account}
    (found : store.accounts.get? name = some stored)
    (there : (action.apply context store NoFaults.mk).store.accounts.get? name = some kept)
    (changed : kept ≠ stored) :
    (action.apply context store NoFaults.mk).result = .ok () ∧
      ((∃ update, action = .updateOwner update ∧ update.name = name ∧ update.owner ≠ [] ∧
        kept = { stored with owner := update.owner }) ∨
      ∃ transfer, action = .transferBalance transfer ∧
        (transfer.source = name ∨ transfer.target = name) ∧
        kept = { stored with balance := kept.balance }) := by
  obtain ⟨finished, -, revises⟩ := revises_of_changed (.account name)
    (Store.lookup?_account_iff.mpr found) (Store.lookup?_account_iff.mpr there)
    fun same => changed (Entry.account.inj same)
  have here : stored.name = name := Table.key_of_get? found
  cases revises with
  | accountOwner update named owned =>
      exact ⟨finished, .inl ⟨update, rfl, named.symm.trans here, owned, rfl⟩⟩
  | balance transfer named balance =>
      refine ⟨finished, .inr ⟨transfer, rfl, ?_, rfl⟩⟩
      exact named.imp (fun same => same.symm.trans here) fun same => same.symm.trans here

end Action

end TokenLedger
