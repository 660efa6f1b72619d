import TokenLedger.Proofs.History
import TokenLedger.Proofs.Succession

/-!
Who owns what the ledger holds.

Tokens are issued to somebody and accounts are handed over to somebody, but a token may be handed to
nobody and an account may be opened for nobody: neither of these actions looks at the owner it is
given. So each token and each account without an owner goes back to such a step
(`Store.replay_ownership`), and each such step is in order as far as its owner goes.
-/

set_option autoImplicit false

namespace TokenLedger

/-- The step hands the token to nobody. -/
def Step.Abandons (step : Step) (key : TokenKey) : Prop :=
  ∃ transfer, step.action = .transferToken transfer ∧ ⟨transfer.domain, transfer.name⟩ = key ∧
    transfer.owner = []

/-- The step opens the account for nobody. -/
def Step.OpensUnowned (step : Step) (name : Name) : Prop :=
  ∃ opening, step.action = .newAccount opening ∧ opening.name = name ∧ opening.owner = []

/-- All tokens and accounts have owners but for those that one of the steps left without. -/
structure Store.OwnedBut (store : Store) (steps : List Step) : Prop where
  tokens : ∀ key token, store.tokens.get? key = some token →
    token.owner ≠ [] ∨ ∃ step ∈ steps, step.Abandons key
  accounts : ∀ name account, store.accounts.get? name = some account →
    account.owner ≠ [] ∨ ∃ step ∈ steps, step.OpensUnowned name

namespace Store.OwnedBut

variable {store : Store} {steps : List Step}

theorem empty : Store.empty.OwnedBut steps where
  tokens _ _ found := nomatch found
  accounts _ _ found := nomatch found

theorem after (owned : store.OwnedBut steps) {step : Step} (listed : step ∈ steps) :
    (store.after step).OwnedBut steps := by
  rcases step with ⟨context, action⟩
  rcases action.apply_successions context store with ⟨-, same⟩ | ⟨-, -, successions⟩
  · rwa [Store.after, same]
  constructor
  case tokens =>
    intro key token found
    have there : (action.apply context store NoFaults.mk).store.lookup? (.token key) =
        some (.token token) := lookup?_token_iff.mpr found
    cases successions (.token key) with
    | kept same =>
        exact owned.tokens key token ((lookup?_token_congr.mp same).symm.trans found)
    | added _ there' adds =>
        cases Option.some.inj (there.symm.trans there')
        cases adds with
        | token _ _ nonempty => exact .inl nonempty
    | @revised stored _ before there' revises =>
        cases Option.some.inj (there.symm.trans there')
        cases revises with
        | tokenOwner transfer named =>
            by_cases nobody : transfer.owner = []
            · have here := RecordKey.token.inj (Store.key_of_lookup? before)
              exact .inr ⟨_, listed, transfer, rfl, named.symm.trans here, nobody⟩
            · exact .inl nobody
  case accounts =>
    intro name account found
    have there : (action.apply context store NoFaults.mk).store.lookup? (.account name) =
        some (.account account) := lookup?_account_iff.mpr found
    cases successions (.account name) with
    | kept same =>
        exact owned.accounts name account ((lookup?_account_congr.mp same).symm.trans found)
    | added _ there' adds =>
        cases Option.some.inj (there.symm.trans there')
        cases adds with
        | account opening =>
            by_cases nobody : opening.owner = []
            · have here := RecordKey.account.inj (Store.key_of_lookup? there)
              exact .inr ⟨_, listed, opening, rfl, here, nobody⟩
            · exact .inl nobody
    | revised before there' revises =>
        cases Option.some.inj (there.symm.trans there')
        cases revises with
        | accountOwner update _ nonempty => exact .inl nonempty
        | @balance transfer stored _ _ =>
            exact owned.accounts name stored (lookup?_account_iff.mp before)

end Store.OwnedBut

section Nobody

variable {context : Context} {store : Store}

/-- A stored token may be handed to nobody. -/
theorem TransferToken.apply_nobody {domain name : Name} {token : Token}
    (authorized : context.authorized (.token domain name) = true)
    (found : store.tokens.get? ⟨domain, name⟩ = some token) :
    let outcome := (Action.transferToken ⟨domain, name, []⟩).apply context store NoFaults.mk
    outcome.result = .ok () ∧
      outcome.store.tokens.get? ⟨domain, name⟩ = some { token with owner := [] } := by
  intro outcome
  have settled : ((Action.transferToken ⟨domain, name, []⟩).plan context).settle store =
      .ok (.transferToken domain name []) :=
    TransferToken.settle_plan_eq_ok_iff.mpr ⟨Table.contains_of_get? found, rfl⟩
  obtain ⟨finished, left⟩ := Action.apply_of_settle authorized settled
  refine ⟨finished, ?_⟩
  have here : token.key = ⟨domain, name⟩ := Table.key_of_get? found
  have there := (Filed.transferToken [] found).filed _ (List.mem_singleton_self _)
  rw [left]
  exact here ▸ Store.lookup?_token_iff.mp there

/-- An account may be opened for nobody. -/
theorem NewAccount.apply_nobody {name : Name}
    (authorized : context.authorized (.account name) = true) (named : name.text ≠ "")
    (fresh : store.accounts.get? name = none) (checked : context.config.check = .ok ()) :
    let outcome := (Action.newAccount ⟨name, []⟩).apply context store NoFaults.mk
    outcome.result = .ok () ∧ ∃ account, outcome.store.accounts.get? name = some account ∧
      account.owner = [] := by
  intro outcome
  have settled : ((Action.newAccount ⟨name, []⟩).plan context).settle store =
      .ok (.newAccount (NewAccount.record ⟨name, []⟩ context.time context.config)) :=
    NewAccount.settle_plan_eq_ok_iff.mpr
      ⟨by simpa [Name.isEmpty] using named, Table.contains_eq_false_iff.mpr fresh, checked, rfl⟩
  obtain ⟨finished, left⟩ := Action.apply_of_settle authorized settled
  refine ⟨finished, NewAccount.record ⟨name, []⟩ context.time context.config, ?_, rfl⟩
  rw [left]
  simp [Plan.writes, Store.written, NewAccount.record]

end Nobody

/-- After every run from an empty ledger, each token without an owner was handed to nobody by one of
the steps, and each account without an owner was opened by one. Nothing stands against such steps: a
token may be handed to nobody and an account opened for nobody wherever they may be for somebody. -/
theorem Store.replay_ownership (steps : List Step) :
    (Store.empty.replay steps).OwnedBut steps ∧
      (∀ (context : Context) domain name token,
        context.authorized (.token domain name) = true →
        (Store.empty.replay steps).tokens.get? ⟨domain, name⟩ = some token →
          let outcome := (Action.transferToken ⟨domain, name, []⟩).apply context
            (Store.empty.replay steps) NoFaults.mk
          outcome.result = .ok () ∧
            outcome.store.tokens.get? ⟨domain, name⟩ = some { token with owner := [] }) ∧
      ∀ (context : Context) name, context.authorized (.account name) = true → name.text ≠ "" →
        (Store.empty.replay steps).accounts.get? name = none → context.config.check = .ok () →
          let outcome := (Action.newAccount ⟨name, []⟩).apply context
            (Store.empty.replay steps) NoFaults.mk
          outcome.result = .ok () ∧ ∃ account, outcome.store.accounts.get? name = some account ∧
            account.owner = [] := by
  refine ⟨replay_induction_of_mem (fun store => store.OwnedBut steps) .empty ?_, ?_, ?_⟩
  · intro store step listed owned
    exact owned.after listed
  · intro context domain name token authorized found
    exact TransferToken.apply_nobody authorized found
  · intro context name authorized named fresh checked
    exact NewAccount.apply_nobody authorized named fresh checked

theorem Store.replay_ownership_of_issue :
    let noon : Instant := ⟨⟨2018, 5, 1, by decide⟩, 12, 0, 0, 0⟩
    let context : Context := ⟨fun _ => true, noon, .standard⟩
    let group : Group := ⟨⟨"8254c329a92850f6d539dd376f4816ee"⟩, ⟨"k"⟩, 1, [⟨⟨"k"⟩, 1⟩]⟩
    let permission (name : String) : Permission := ⟨⟨name⟩, 1, [⟨group.id, 1⟩]⟩
    let creation : Action := .newDomain ⟨⟨"d"⟩, ⟨"k"⟩, permission "issue", permission "transfer",
      permission "manage", [group]⟩
    let steps : List Step :=
      [⟨context, creation⟩, ⟨context, .issueTokens ⟨⟨"d"⟩, [⟨"t"⟩], [⟨"k"⟩]⟩⟩]
    let store := Store.empty.replay steps
    store.tokens.get? ⟨⟨"d"⟩, ⟨"t"⟩⟩ = some ⟨⟨"d"⟩, ⟨"t"⟩, [⟨"k"⟩]⟩ ∧
      (let outcome := (Action.transferToken ⟨⟨"d"⟩, ⟨"t"⟩, []⟩).apply context store NoFaults.mk
       outcome.result = .ok () ∧
         outcome.store.tokens.get? ⟨⟨"d"⟩, ⟨"t"⟩⟩ = some ⟨⟨"d"⟩, ⟨"t"⟩, []⟩) ∧
      store.accounts.get? ⟨"alice"⟩ = none ∧
        let outcome := (Action.newAccount ⟨⟨"alice"⟩, []⟩).apply context store NoFaults.mk
        outcome.result = .ok () ∧
          ∃ account, outcome.store.accounts.get? ⟨"alice"⟩ = some account ∧ account.owner = [] := by
  intro noon context group permission creation steps store
  have held : store.tokens.get? ⟨⟨"d"⟩, ⟨"t"⟩⟩ = some ⟨⟨"d"⟩, ⟨"t"⟩, [⟨"k"⟩]⟩ := by decide +kernel
  have fresh : store.accounts.get? ⟨"alice"⟩ = none := by decide +kernel
  obtain ⟨-, handed, unowned⟩ := replay_ownership steps
  -- From here on the run is a black box, so that nothing replays it again.
  clear_value steps
  exact ⟨held, handed context _ _ _ rfl held, fresh, unowned context _ rfl (by decide) fresh rfl⟩

theorem Store.replay_unowned :
    let noon : Instant := ⟨⟨2018, 5, 1, by decide⟩, 12, 0, 0, 0⟩
    let context : Context := ⟨fun _ => true, noon, .standard⟩
    let group : Group := ⟨⟨"8254c329a92850f6d539dd376f4816ee"⟩, ⟨"k"⟩, 1, [⟨⟨"k"⟩, 1⟩]⟩
    let permission (name : String) : Permission := ⟨⟨name⟩, 1, [⟨group.id, 1⟩]⟩
    let actions : List Action := [
      .newDomain ⟨⟨"d"⟩, ⟨"k"⟩, permission "issue", permission "transfer", permission "manage",
        [group]⟩,
      .issueTokens ⟨⟨"d"⟩, [⟨"t"⟩], [⟨"k"⟩]⟩,
      .transferToken ⟨⟨"d"⟩, ⟨"t"⟩, []⟩,
      .newAccount ⟨⟨"alice"⟩, []⟩]
    let store := Store.empty.replay (actions.map fun action => ⟨context, action⟩)
    store.tokens.toList = [⟨⟨"d"⟩, ⟨"t"⟩, []⟩] ∧
      store.accounts.toList = [⟨⟨"alice"⟩, ⟨"evt"⟩, noon, { val := 10000 }, .zero, []⟩] := by
  decide +kernel

end TokenLedger
