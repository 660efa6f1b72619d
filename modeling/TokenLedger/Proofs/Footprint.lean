import TokenLedger.Proofs.Application

/-!
The records that an action may write.

They are named by the action alone (`Action.targets`), whatever the store and its faults do. Of a
target of an action in order, the scope of the action tells whether it is stored already.
-/

set_option autoImplicit false

namespace TokenLedger

variable {store : Store} {context : Context} {action : Action} {plan : Plan}

namespace Action

def targets : Action → List RecordKey
  | .newDomain action => .domain action.name :: action.groups.map fun group => .group group.id
  | .updateDomain action => .domain action.name :: action.groups.map fun group => .group group.id
  | .issueTokens action => action.names.map fun name => .token ⟨action.domain, name⟩
  | .transferToken action => [.token ⟨action.domain, action.name⟩]
  | .updateGroup action => [.group action.id]
  | .newAccount action => [.account action.name]
  | .updateOwner action => [.account action.name]
  | .transferBalance action => [.account action.source, .account action.target]

theorem mem_targets_of_settle (settled : (action.plan context).settle store = .ok plan)
    {write : Write} {key : RecordKey} (planned : write ∈ plan.writes) (member : key ∈ write.keys) :
    key ∈ action.targets := by
  have groups {first : RecordKey} {definitions : List Group}
      (planned : write ∈ definitions.map Write.addGroup) :
      key ∈ first :: definitions.map fun group => .group group.id := by
    obtain ⟨group, defined, rfl⟩ := List.mem_map.mp planned
    cases List.mem_singleton.mp member
    exact List.mem_cons_of_mem _ (List.mem_map.mpr ⟨group, defined, rfl⟩)
  cases action with
  | newDomain action =>
      obtain ⟨-, -, -, -, -, -, rfl⟩ := NewDomain.settle_plan_eq_ok_iff.mp settled
      rcases List.mem_cons.mp planned with rfl | planned
      · cases List.mem_singleton.mp member
        exact List.mem_cons_self
      · exact groups planned
  | updateDomain action =>
      obtain ⟨stored, found, -, -, -, -, rfl⟩ := UpdateDomain.settle_plan_eq_ok_iff.mp settled
      have same : stored.name = action.name := Table.key_of_get? found
      rcases List.mem_cons.mp planned with rfl | planned
      · cases List.mem_singleton.mp member
        exact same ▸ List.mem_cons_self
      · exact groups planned
  | issueTokens action =>
      obtain ⟨-, -, -, -, rfl⟩ := IssueTokens.settle_plan_eq_ok_iff.mp settled
      cases List.mem_singleton.mp planned
      simpa [Write.keys, IssueTokens.tokens, targets, Token.key] using member
  | transferToken action =>
      obtain ⟨-, rfl⟩ := TransferToken.settle_plan_eq_ok_iff.mp settled
      cases List.mem_singleton.mp planned
      exact member
  | updateGroup action =>
      obtain ⟨stored, found, -, -, rfl⟩ := UpdateGroup.settle_plan_eq_ok_iff.mp settled
      have same : stored.id = action.id := Table.key_of_get? found
      cases List.mem_singleton.mp planned
      simpa [Write.keys, targets, same] using member
  | newAccount action =>
      obtain ⟨-, -, -, rfl⟩ := NewAccount.settle_plan_eq_ok_iff.mp settled
      cases List.mem_singleton.mp planned
      exact member
  | updateOwner action =>
      obtain ⟨stored, found, -, rfl⟩ := UpdateOwner.settle_plan_eq_ok_iff.mp settled
      have same : stored.name = action.name := Table.key_of_get? found
      cases List.mem_singleton.mp planned
      simpa [Write.keys, targets, same] using member
  | transferBalance action =>
      obtain ⟨source, target, debited, credited, moves, rfl⟩ :=
        TransferBalance.moves_of_settle settled
      rcases List.mem_cons.mp planned with rfl | planned
      · simp_all [Write.keys, targets, moves.debited_name]
      · cases List.mem_singleton.mp planned
        simp_all [Write.keys, targets, moves.credited_name]

/-- Whatever the store and its faults do, an action changes only its targets. -/
theorem lookup?_apply {φ : Type} [FaultSource φ] (context : Context) (store : Store) (faults : φ)
    {key : RecordKey} (elsewhere : key ∉ action.targets) :
    (action.apply context store faults).store.lookup? key = store.lookup? key := by
  rcases action.apply_cases context store faults with
    refuses | ⟨plan, done, rest, settled, split, makes⟩
  · rw [refuses.store]
  · rw [makes.store]
    apply store.lookup?_rewritten
    intro write member touched
    have planned : write ∈ plan.writes := split ▸ List.mem_append_left rest member
    exact elsewhere (mem_targets_of_settle (settle_validate_eq_ok_iff.mp settled).2 planned touched)

theorem mem_targets_of_changed {φ : Type} [FaultSource φ] {faults : φ} {key : RecordKey}
    (changed : (action.apply context store faults).store.lookup? key ≠ store.lookup? key) :
    key ∈ action.targets := by
  by_cases target : key ∈ action.targets
  · exact target
  · exact absurd (lookup?_apply context store faults target) changed

section Tables

variable {φ : Type} [FaultSource φ] {action : Action} (context : Context) (store : Store)
  (faults : φ)

/-- A table none of whose keys is a target is left alone as a whole. -/
theorem table_apply {α κ : Type} [Keyed α κ] [LT κ] [LE κ] [Std.IsLinearOrder κ]
    [Std.LawfulOrderLT κ] [DecidableEq κ] {table : Store → Table α} {key : κ → RecordKey}
    {entry : α → Entry} (injective : Function.Injective entry)
    (looked : ∀ (store : Store) k, store.lookup? (key k) = ((table store).get? k).map entry)
    (elsewhere : ∀ k, key k ∉ action.targets) :
    table (action.apply context store faults).store = table store := by
  apply Table.ext_get?
  intro k
  have unchanged := lookup?_apply context store faults (elsewhere k)
  rw [looked, looked] at unchanged
  exact Option.map_injective injective unchanged

theorem domains_apply (elsewhere : ∀ name, .domain name ∉ action.targets) :
    (action.apply context store faults).store.domains = store.domains :=
  table_apply context store faults (fun _ _ => Entry.domain.inj) (fun _ _ => rfl) elsewhere

theorem groups_apply (elsewhere : ∀ id, .group id ∉ action.targets) :
    (action.apply context store faults).store.groups = store.groups :=
  table_apply context store faults (fun _ _ => Entry.group.inj) (fun _ _ => rfl) elsewhere

theorem accounts_apply (elsewhere : ∀ name, .account name ∉ action.targets) :
    (action.apply context store faults).store.accounts = store.accounts :=
  table_apply context store faults (fun _ _ => Entry.account.inj) (fun _ _ => rfl) elsewhere

end Tables

section Scopes

variable {name : Name}

theorem scope_of_domain_target (settled : (action.plan context).settle store = .ok plan)
    (target : .domain name ∈ action.targets) :
    (action.scope = .newDomain name ∧ store.domains.get? name = none) ∨
      (action.scope = .domainManage name ∧ ∃ stored, store.domains.get? name = some stored) := by
  cases action with
  | newDomain action =>
      obtain ⟨fresh, -⟩ := NewDomain.settle_plan_eq_ok_iff.mp settled
      have same : name = action.name := by simpa [targets] using target
      subst same
      exact .inl ⟨rfl, Table.contains_eq_false_iff.mp fresh⟩
  | updateDomain action =>
      obtain ⟨stored, found, -⟩ := UpdateDomain.settle_plan_eq_ok_iff.mp settled
      have same : name = action.name := by simpa [targets] using target
      subst same
      exact .inr ⟨rfl, stored, found⟩
  | issueTokens | transferToken | updateGroup | newAccount | updateOwner | transferBalance =>
      simp [targets] at target

theorem scope_of_group_target {id : GroupId}
    (settled : (action.plan context).settle store = .ok plan)
    (target : .group id ∈ action.targets) :
    (store.groups.get? id = none ∧
      ((∃ submitted, action = .newDomain submitted) ∨
        ∃ submitted, action = .updateDomain submitted)) ∨
      (action.scope = .group id ∧ ∃ stored, store.groups.get? id = some stored) := by
  cases action with
  | newDomain action =>
      obtain ⟨-, -, -, -, -, absent, -⟩ := NewDomain.settle_plan_eq_ok_iff.mp settled
      obtain ⟨group, defined, rfl⟩ : ∃ group ∈ action.groups, group.id = id := by
        simpa [targets] using target
      exact .inl ⟨Table.contains_eq_false_iff.mp (absent group defined), .inl ⟨action, rfl⟩⟩
  | updateDomain action =>
      obtain ⟨-, -, -, -, -, absent, -⟩ := UpdateDomain.settle_plan_eq_ok_iff.mp settled
      obtain ⟨group, defined, rfl⟩ : ∃ group ∈ action.groups, group.id = id := by
        simpa [targets] using target
      exact .inl ⟨Table.contains_eq_false_iff.mp (absent group defined), .inr ⟨action, rfl⟩⟩
  | updateGroup action =>
      obtain ⟨stored, found, -⟩ := UpdateGroup.settle_plan_eq_ok_iff.mp settled
      have same : id = action.id := by simpa [targets] using target
      subst same
      exact .inr ⟨rfl, stored, found⟩
  | issueTokens | transferToken | newAccount | updateOwner | transferBalance =>
      simp [targets] at target

theorem scope_of_token_target {key : TokenKey}
    (settled : (action.plan context).settle store = .ok plan)
    (target : .token key ∈ action.targets) :
    (action.scope = .domainIssue key.domain ∧ store.tokens.get? key = none) ∨
      (action.scope = .token key.domain key.name ∧
        ∃ stored, store.tokens.get? key = some stored) := by
  cases action with
  | issueTokens action =>
      obtain ⟨-, -, fresh, -⟩ := IssueTokens.settle_plan_eq_ok_iff.mp settled
      obtain ⟨name, listed, rfl⟩ : ∃ name ∈ action.names, ⟨action.domain, name⟩ = key := by
        simpa [targets] using target
      exact .inl ⟨rfl, Table.contains_eq_false_iff.mp (fresh name listed).2⟩
  | transferToken action =>
      obtain ⟨issued, -⟩ := TransferToken.settle_plan_eq_ok_iff.mp settled
      have same : key = ⟨action.domain, action.name⟩ := by simpa [targets] using target
      subst same
      exact .inr ⟨rfl, Table.contains_iff.mp issued⟩
  | newDomain | updateDomain | updateGroup | newAccount | updateOwner | transferBalance =>
      simp [targets] at target

end Scopes

end Action

end TokenLedger
