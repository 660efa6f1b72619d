import TokenLedger.Proofs.History
import TokenLedger.Proofs.Succession

/-!
Records are permanent.

A record that is stored once stays stored, and what tells which record it is never changes
(`Store.Persists`). The rest of it changes only by the one kind of action that is there to change it
(`Passage.Attributed`).
-/

set_option autoImplicit false

namespace TokenLedger

/-- The entries are of one record: its contents may differ, but not what it was created as. -/
def Entry.SameRecord : Entry → Entry → Prop
  | .domain stored, .domain kept =>
      kept.name = stored.name ∧ kept.issuer = stored.issuer ∧ kept.issueTime = stored.issueTime
  | .group stored, .group kept => kept.id = stored.id ∧ kept.key = stored.key
  | .token stored, .token kept => kept.domain = stored.domain ∧ kept.name = stored.name
  | .account stored, .account kept =>
      kept.name = stored.name ∧ kept.creator = stored.creator ∧
        kept.createTime = stored.createTime ∧ kept.frozenBalance = stored.frozenBalance
  | _, _ => False

/-- Every record of the first store is in the second, under the same key. -/
def Store.Persists (before after : Store) : Prop :=
  ∀ key stored, before.lookup? key = some stored →
    ∃ kept, after.lookup? key = some kept ∧ stored.SameRecord kept

namespace Entry.SameRecord

theorem refl (entry : Entry) : entry.SameRecord entry := by
  cases entry <;> simp [SameRecord]

theorem trans {first second third : Entry} (start : first.SameRecord second)
    (rest : second.SameRecord third) : first.SameRecord third := by
  cases first <;> cases second <;> cases third <;> simp_all [SameRecord]

theorem of_revises {action : Action} {stored kept : Entry} (revises : action.Revises stored kept) :
    stored.SameRecord kept := by
  cases revises <;> simp [SameRecord, UpdateDomain.amended]

end Entry.SameRecord

namespace Store.Persists

variable {before middle after : Store}

theorem refl (store : Store) : store.Persists store :=
  fun _ stored found => ⟨stored, found, .refl stored⟩

theorem trans (start : before.Persists middle) (rest : middle.Persists after) :
    before.Persists after := by
  intro key stored found
  obtain ⟨between, there, same⟩ := start key stored found
  obtain ⟨kept, left, sameAgain⟩ := rest key between there
  exact ⟨kept, left, same.trans sameAgain⟩

theorem step (store : Store) (step : Step) : store.Persists (store.after step) := by
  intro key stored found
  rcases step.action.apply_successions step.context store with ⟨-, same⟩ | ⟨-, -, successions⟩
  · exact ⟨stored, (congrArg (Store.lookup? · key) same).trans found, .refl stored⟩
  · cases successions key with
    | kept same => exact ⟨stored, same.trans found, .refl stored⟩
    | added missing _ _ => exact nomatch found.symm.trans missing
    | revised found' there revises =>
        cases Option.some.inj (found.symm.trans found')
        exact ⟨_, there, .of_revises revises⟩

end Store.Persists

/-- The step is the only kind that could have made the differences between the records before it and
after it, and it was in order. -/
structure Passage.Attributed (passage : Passage NoFaults) : Prop where
  permissions : ∀ name stored kept slot, passage.before.domains.get? name = some stored →
    passage.outcome.store.domains.get? name = some kept →
    kept.permission slot ≠ stored.permission slot →
      passage.outcome.result = .ok () ∧ ∃ update, passage.step.action = .updateDomain update ∧
        update.name = name ∧ update.permission? slot = some (kept.permission slot)
  keys : ∀ id stored kept, passage.before.groups.get? id = some stored →
    passage.outcome.store.groups.get? id = some kept →
    kept.threshold ≠ stored.threshold ∨ kept.keys ≠ stored.keys →
      passage.outcome.result = .ok () ∧ ∃ update, passage.step.action = .updateGroup update ∧
        update.id = id
  tokenOwner : ∀ domain name stored kept,
    passage.before.tokens.get? ⟨domain, name⟩ = some stored →
    passage.outcome.store.tokens.get? ⟨domain, name⟩ = some kept → kept.owner ≠ stored.owner →
      passage.outcome.result = .ok () ∧ ∃ transfer, passage.step.action = .transferToken transfer ∧
        transfer.domain = domain ∧ transfer.name = name
  accountOwner : ∀ name stored kept, passage.before.accounts.get? name = some stored →
    passage.outcome.store.accounts.get? name = some kept → kept.owner ≠ stored.owner →
      passage.outcome.result = .ok () ∧ ∃ update, passage.step.action = .updateOwner update ∧
        update.name = name
  balance : ∀ name stored kept, passage.before.accounts.get? name = some stored →
    passage.outcome.store.accounts.get? name = some kept → kept.balance ≠ stored.balance →
      passage.outcome.result = .ok () ∧
        ∃ transfer, passage.step.action = .transferBalance transfer ∧
          (transfer.source = name ∨ transfer.target = name)

theorem Passage.attributed (step : Step) (store : Store) :
    (⟨step, store, step.action.apply step.context store NoFaults.mk⟩ :
      Passage NoFaults).Attributed := by
  constructor
  case permissions =>
    intro name stored kept slot found there changed
    obtain ⟨finished, -, update, action, named, rfl⟩ := Action.domain_revised found there
      fun same => changed (congrArg (Domain.permission · slot) same)
    rw [UpdateDomain.permission_amended] at changed ⊢
    refine ⟨finished, update, action, named, ?_⟩
    cases given : update.permission? slot with
    | none => simp [given] at changed
    | some permission => rfl
  case keys =>
    intro id stored kept found there changed
    obtain ⟨finished, update, action, named, -⟩ := Action.group_revised found there
      (by rintro rfl; simp at changed)
    exact ⟨finished, update, action, named⟩
  case tokenOwner =>
    intro domain name stored kept found there changed
    obtain ⟨finished, transfer, action, named, -⟩ := Action.token_revised found there
      fun same => changed (congrArg Token.owner same)
    exact ⟨finished, transfer, action, congrArg TokenKey.domain named, congrArg TokenKey.name named⟩
  case accountOwner =>
    intro name stored kept found there changed
    obtain ⟨finished, ⟨update, action, named, -, -⟩ | ⟨transfer, -, -, same⟩⟩ :=
      Action.account_revised found there fun same => changed (congrArg Account.owner same)
    · exact ⟨finished, update, action, named⟩
    · exact absurd (congrArg Account.owner same) changed
  case balance =>
    intro name stored kept found there changed
    obtain ⟨finished, ⟨update, -, -, -, same⟩ | ⟨transfer, action, named, -⟩⟩ :=
      Action.account_revised found there fun same => changed (congrArg Account.balance same)
    · exact absurd (congrArg Account.balance same) changed
    · exact ⟨finished, transfer, action, named⟩

/-- Along every run no record is removed or replaced by another, and each change of a record is made
by a step of the one kind that may make it. -/
theorem Store.records_permanent (store : Store) (steps : List Step) :
    store.Persists (store.replay steps) ∧
      ∀ passage ∈ store.passages steps NoFaults.mk, passage.Attributed := by
  refine ⟨?_, passages_induction (fun step store faults => ?_) store steps NoFaults.mk⟩
  · apply replay_induction (.refl store)
    intro middle step persists
    exact persists.trans (.step middle step)
  · exact Passage.attributed step store

end TokenLedger
