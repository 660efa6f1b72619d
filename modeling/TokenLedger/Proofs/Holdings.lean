import TokenLedger.Proofs.History

/-!
What the ledger holds stays in order.

Every token belongs to a stored domain, and every account is named, has a creator, has nothing
frozen and is not in debt. One write keeps that if what it writes is in order
(`Store.Holdings.written`), and an action plans no other writes (`Action.sound_of_settle`). The
configuration may change from step to step, so a new account relies on its own check of it.
-/

set_option autoImplicit false

namespace TokenLedger

/-- The token has a name, and its domain is stored. -/
structure Token.Housed (token : Token) (store : Store) : Prop where
  named : token.name.text ≠ ""
  domain : ∃ domain, store.domains.get? token.domain = some domain

structure Account.Sound (account : Account) : Prop where
  named : account.name.text ≠ ""
  created : account.creator.text ≠ ""
  unfrozen : account.frozenBalance.val = 0
  nonneg : 0 ≤ account.balance.val
  bounded : account.balance.val ≤ 9223372036854775807

/-- Tokens and accounts are filed under their own names and are in order. -/
structure Store.Holdings (store : Store) : Prop where
  tokens : ∀ key token, store.tokens.get? key = some token →
    (⟨token.domain, token.name⟩ : TokenKey) = key ∧ token.Housed store
  accounts : ∀ name account, store.accounts.get? name = some account →
    account.name = name ∧ account.Sound

/-- The tokens and the accounts that are written are in order. -/
def Write.Sound (store : Store) : Write → Prop
  | .issueTokens batch => ∀ token ∈ batch, token.Housed store
  | .addAccount account | .updateAccount account => account.Sound
  | .addDomain _ | .updateDomain _ | .addGroup _ | .updateGroup _ | .transferToken _ _ _ => True

section Writing

variable {store after : Store} {write : Write} {writes : List Write}

theorem Token.Housed.mono {token : Token} (housed : token.Housed store)
    (grown : ∀ name, store.domains.contains name = true → after.domains.contains name = true) :
    token.Housed after where
  named := housed.named
  domain := Table.contains_iff.mp (grown token.domain (Table.contains_iff.mpr housed.domain))

/-- No write removes a domain. -/
theorem Store.contains_domains_written (store : Store) (write : Write) {name : Name}
    (known : store.domains.contains name = true) :
    (store.written write).domains.contains name = true := by
  cases write with
  | addDomain domain | updateDomain domain => simp [written, known]
  | addGroup | updateGroup | issueTokens | addAccount | updateAccount => exact known
  | transferToken domain token owner =>
      simp only [written]
      split <;> exact known

/-- A token in the store was issued by the write, or it was there before, perhaps with another
owner. -/
theorem Store.get?_tokens_written {key : TokenKey} {token : Token}
    (found : (store.written write).tokens.get? key = some token) :
    (∃ batch, write = .issueTokens batch ∧ token ∈ batch) ∨
      ∃ stored, store.tokens.get? key = some stored ∧
        stored.domain = token.domain ∧ stored.name = token.name := by
  cases write with
  | issueTokens batch =>
      rcases store.tokens.mem_or_get?_of_get?_foldl_insert found with member | there
      · exact .inl ⟨batch, rfl, member⟩
      · exact .inr ⟨token, there, rfl, rfl⟩
  | transferToken domain name owner =>
      right
      simp only [written] at found
      cases handed : store.tokens.get? ⟨domain, name⟩ with
      | none => exact ⟨token, by simpa [handed] using found, rfl, rfl⟩
      | some stored =>
          have here : stored.key = ⟨domain, name⟩ := Table.key_of_get? handed
          simp only [handed, Table.get?_insert] at found
          split at found
          case isTrue same =>
            cases found
            have same : stored.key = key := same
            exact ⟨stored, by rwa [← same, here], rfl, rfl⟩
          case isFalse => exact ⟨token, found, rfl, rfl⟩
  | addDomain | updateDomain | addGroup | updateGroup | addAccount | updateAccount =>
      exact .inr ⟨token, found, rfl, rfl⟩

/-- An account in the store was just written, or it was there before. -/
theorem Store.get?_accounts_written {name : Name} {account : Account}
    (found : (store.written write).accounts.get? name = some account) :
    write = .addAccount account ∨ write = .updateAccount account ∨
      store.accounts.get? name = some account := by
  cases write with
  | addAccount written | updateAccount written =>
      simp only [Store.written, Table.get?_insert] at found
      split at found
      · cases found
        simp
      · exact .inr (.inr found)
  | transferToken domain token owner =>
      simp only [written] at found
      split at found <;> exact .inr (.inr found)
  | addDomain | updateDomain | addGroup | updateGroup | issueTokens => exact .inr (.inr found)

theorem Write.Sound.mono (sound : write.Sound store)
    (grown : ∀ name, store.domains.contains name = true → after.domains.contains name = true) :
    write.Sound after := by
  cases write with
  | issueTokens batch => exact fun token member => (sound token member).mono grown
  | addDomain | updateDomain | addGroup | updateGroup | transferToken => trivial
  | addAccount | updateAccount => exact sound

namespace Store.Holdings

theorem empty : Store.empty.Holdings where
  tokens _ _ found := nomatch found
  accounts _ _ found := nomatch found

/-- One write keeps the holdings in order if what it writes is. -/
theorem written (holdings : store.Holdings) (sound : write.Sound store) :
    (store.written write).Holdings where
  tokens key token found := by
    refine ⟨Table.key_of_get? found, ?_⟩
    rcases get?_tokens_written found with ⟨batch, rfl, member⟩ | ⟨stored, there, domain, name⟩
    · exact (sound token member).mono fun _ => store.contains_domains_written _
    · have housed := (holdings.tokens key stored there).2.mono fun _ =>
        store.contains_domains_written write
      exact ⟨name ▸ housed.named, domain ▸ housed.domain⟩
  accounts name account found := by
    refine ⟨Table.key_of_get? found, ?_⟩
    rcases get?_accounts_written found with rfl | rfl | there
    · exact sound
    · exact sound
    · exact (holdings.accounts name account there).2

theorem rewritten (holdings : store.Holdings) (sound : ∀ write ∈ writes, write.Sound store) :
    (store.rewritten writes).Holdings := by
  induction writes generalizing store with
  | nil => exact holdings
  | cons write rest inductionHypothesis =>
      obtain ⟨first, others⟩ := List.forall_mem_cons.mp sound
      refine inductionHypothesis (holdings.written first) ?_
      intro later member
      exact (others later member).mono fun _ => store.contains_domains_written write

end Store.Holdings

end Writing

namespace Action

variable {context : Context} {store : Store} {action : Action} {plan : Plan}

/-- In a store whose holdings are in order, an action plans to write only what is in order too. -/
theorem sound_of_settle (holdings : store.Holdings)
    (settled : (action.plan context).settle store = .ok plan) :
    ∀ write ∈ plan.writes, write.Sound store := by
  cases action with
  | newDomain action =>
      obtain ⟨-, -, -, -, -, -, rfl⟩ := NewDomain.settle_plan_eq_ok_iff.mp settled
      simp [Plan.writes, Write.Sound]
  | updateDomain action =>
      obtain ⟨stored, -, -, -, -, -, rfl⟩ := UpdateDomain.settle_plan_eq_ok_iff.mp settled
      simp [Plan.writes, Write.Sound]
  | issueTokens action =>
      obtain ⟨known, -, fresh, -, rfl⟩ := IssueTokens.settle_plan_eq_ok_iff.mp settled
      refine List.forall_mem_singleton.mpr ?_
      intro token member
      obtain ⟨name, listed, rfl⟩ := List.mem_map.mp member
      exact ⟨by simpa [Name.isEmpty] using (fresh name listed).1, Table.contains_iff.mp known⟩
  | transferToken action =>
      obtain ⟨-, rfl⟩ := TransferToken.settle_plan_eq_ok_iff.mp settled
      exact List.forall_mem_singleton.mpr trivial
  | updateGroup action =>
      obtain ⟨stored, -, -, -, rfl⟩ := UpdateGroup.settle_plan_eq_ok_iff.mp settled
      exact List.forall_mem_singleton.mpr trivial
  | newAccount action =>
      obtain ⟨named, -, checked, rfl⟩ := NewAccount.settle_plan_eq_ok_iff.mp settled
      obtain ⟨created, nonneg⟩ := Config.check_eq_ok_iff.mp checked
      have nonempty : action.name.text ≠ "" := by simpa [Name.isEmpty] using named
      refine List.forall_mem_singleton.mpr ?_
      exact ⟨nonempty, created, rfl, nonneg, Amount.upper _⟩
  | updateOwner action =>
      obtain ⟨stored, found, -, rfl⟩ := UpdateOwner.settle_plan_eq_ok_iff.mp settled
      obtain ⟨-, sound⟩ := holdings.accounts _ stored found
      refine List.forall_mem_singleton.mpr ?_
      exact { sound with }
  | transferBalance action =>
      obtain ⟨source, target, debited, credited, foundSource, foundTarget, positive, -, enough,
        debit, credit, rfl⟩ := TransferBalance.settle_plan_eq_ok_iff.mp settled
      obtain ⟨-, payer⟩ := holdings.accounts _ source foundSource
      obtain ⟨-, payee⟩ := holdings.accounts _ target foundTarget
      have left := Amount.sub?_eq_some_iff.mp debit
      have gained := Amount.add?_eq_some_iff.mp credit
      rw [Amount.le_iff_val] at enough
      have positive : 0 < action.amount.val := by simpa [Amount.isPositive] using positive
      have payeeNonneg := payee.nonneg
      refine List.forall_mem_cons.mpr ⟨?_, List.forall_mem_singleton.mpr ?_⟩
      · exact { payer with nonneg := by dsimp only; omega, bounded := debited.upper }
      · exact { payee with nonneg := by dsimp only; omega, bounded := credited.upper }

end Action

/-- Whatever an action comes to, and whatever faults the store has, the holdings stay in order. -/
theorem Store.Holdings.apply {φ : Type} [FaultSource φ] {store : Store} (holdings : store.Holdings)
    (context : Context) (action : Action) (faults : φ) :
    (action.apply context store faults).store.Holdings := by
  rcases action.apply_cases context store faults with
    refuses | ⟨plan, done, rest, settled, split, makes⟩
  · rwa [refuses.store]
  · have sound := Action.sound_of_settle holdings (Action.settle_validate_eq_ok_iff.mp settled).2
    rw [makes.store]
    apply holdings.rewritten
    intro write member
    exact sound write (split ▸ List.mem_append_left rest member)

/-- Whatever actions are applied to a ledger that starts out empty, under whatever configurations,
its tokens and accounts are in order. -/
theorem Store.replay_holdings (steps : List Step) : (Store.empty.replay steps).Holdings :=
  replay_induction .empty
    (fun _ step holdings => holdings.apply step.context step.action NoFaults.mk) steps

end TokenLedger
