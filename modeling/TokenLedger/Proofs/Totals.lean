import Mathlib.Algebra.Order.BigOperators.Group.List
import Mathlib.Algebra.Order.Group.Int
import TokenLedger.Proofs.Holdings
import TokenLedger.Proofs.Rebalancing
import TokenLedger.Proofs.Supply

/-!
The reported total, and what it promises.

The total is added up account by account, and none is reported if a partial sum leaves the range. As
long as nobody is in debt, partial sums only grow, so the total is reported just if the supply is in
range (`Store.Solvent.totalBalance?_eq`), and nobody gets into debt along a run
(`Store.Solvent.apply`). While a total is reported, any two accounts hold no more than it together,
so no transfer is rejected for the range (`Store.replay_transfers`).
-/

set_option autoImplicit false

namespace TokenLedger

namespace Amount

theorem ofInt?_eq_none_iff {n : Int} :
    ofInt? n = none ↔ n < -9223372036854775808 ∨ 9223372036854775807 < n := by
  unfold ofInt?
  split <;> simp
  all_goals omega

/-- Amounts that can be added up one after the other come to their sum. -/
theorem val_of_foldlM_add? {amounts : List Amount} {start total : Amount}
    (added : amounts.foldlM add? start = some total) :
    total.val = start.val + (amounts.map val).sum := by
  induction amounts generalizing start with
  | nil =>
      cases added
      exact (Int.add_zero _).symm
  | cons amount rest inductionHypothesis =>
      obtain ⟨next, first, others⟩ := Option.bind_eq_some_iff.mp added
      have exact := add?_eq_some_iff.mp first
      rw [inductionHypothesis others, ← exact, List.map_cons, List.sum_cons, Int.add_assoc]

/-- Without negative amounts no partial sum leaves the range unless the whole sum does. -/
theorem foldlM_add?_of_nonneg {amounts : List Amount} (nonneg : ∀ amount ∈ amounts, 0 ≤ amount.val)
    {start : Amount} (started : 0 ≤ start.val) :
    amounts.foldlM add? start = ofInt? (start.val + (amounts.map val).sum) := by
  induction amounts generalizing start with
  | nil => simp
  | cons amount rest inductionHypothesis =>
      obtain ⟨first, others⟩ := List.forall_mem_cons.mp nonneg
      have remaining : 0 ≤ (rest.map val).sum :=
        List.sum_nonneg (List.forall_mem_map.mpr others)
      rw [List.foldlM_cons, List.map_cons, List.sum_cons, ← Int.add_assoc]
      cases added : start.add? amount with
      | none =>
          have leaves := ofInt?_eq_none_iff.mp added
          -- It left the range upwards, and what is still to come does not lead back.
          refine (ofInt?_eq_none_iff.mpr ?_).symm
          omega
      | some next =>
          have exact := add?_eq_some_iff.mp added
          rw [exact]
          exact inductionHypothesis others (by omega)

end Amount

namespace Store

/-- The balances in the order of the accounts. -/
def balances (store : Store) : List Amount := store.accounts.toList.map Account.balance

/-- Nobody is in debt. -/
def Solvent (store : Store) : Prop := ∀ account ∈ store.accounts.toList, 0 ≤ account.balance.val

theorem solvent_iff {store : Store} :
    store.Solvent ↔ ∀ balance ∈ store.balances, 0 ≤ balance.val := by
  rw [balances, List.forall_mem_map]
  exact Iff.rfl

theorem totalBalance?_eq_foldlM (store : Store) :
    store.totalBalance? = store.balances.foldlM Amount.add? .zero := by
  rw [balances, List.foldlM_map]
  rfl

theorem supply_eq_sum (store : Store) : store.supply = (store.balances.map Amount.val).sum := by
  rw [balances, List.map_map]
  rfl

theorem supply_eq_of_totalBalance? {store : Store} {total : Amount}
    (reported : store.totalBalance? = some total) : total.val = store.supply := by
  rw [totalBalance?_eq_foldlM] at reported
  rw [supply_eq_sum, Amount.val_of_foldlM_add? reported]
  exact Int.zero_add _

namespace Solvent

variable {store other : Store}

theorem get? (solvent : store.Solvent) {name : Name} {account : Account}
    (found : store.accounts.get? name = some account) : 0 ≤ account.balance.val :=
  solvent account (Table.mem_and_key_of_get? found).1

theorem empty : Store.empty.Solvent := List.forall_mem_nil _

theorem of_perm (solvent : store.Solvent) (reordered : other.balances.Perm store.balances) :
    other.Solvent := by
  apply solvent_iff.mpr
  intro balance listed
  exact solvent_iff.mp solvent balance (reordered.mem_iff.mp listed)

theorem totalBalance?_eq (solvent : store.Solvent) :
    store.totalBalance? = Amount.ofInt? store.supply := by
  have nonneg := solvent_iff.mp solvent
  rw [totalBalance?_eq_foldlM, Amount.foldlM_add?_of_nonneg nonneg (Int.le_refl 0), supply_eq_sum]
  exact congrArg Amount.ofInt? (Int.zero_add _)

theorem totalBalance?_congr (solvent : store.Solvent) (solvent' : other.Solvent)
    (same : other.supply = store.supply) : other.totalBalance? = store.totalBalance? := by
  rw [solvent.totalBalance?_eq, solvent'.totalBalance?_eq, same]

theorem supply_nonneg (solvent : store.Solvent) : 0 ≤ store.supply :=
  List.sum_nonneg (List.forall_mem_map.mpr solvent)

theorem totalBalance?_eq_none_iff (solvent : store.Solvent) :
    store.totalBalance? = none ↔ 9223372036854775807 < store.supply := by
  have nonneg := solvent.supply_nonneg
  rw [solvent.totalBalance?_eq, Amount.ofInt?_eq_none_iff]
  omega

/-- Two accounts together hold no more than there is. -/
theorem add_le_supply (solvent : store.Solvent) {first second : Name} (different : first ≠ second)
    {account account' : Account} (found : store.accounts.get? first = some account)
    (found' : store.accounts.get? second = some account') :
    account.balance.val + account'.balance.val ≤ store.supply := by
  obtain ⟨member, named⟩ := Table.mem_and_key_of_get? found
  obtain ⟨member', named'⟩ := Table.mem_and_key_of_get? found'
  have apart : account' ≠ account := by
    rintro rfl
    exact different (named.symm.trans named')
  -- The second account is one of the others when the first is set aside.
  have others : ∀ balance ∈ (store.accounts.toList.erase account).map fun account =>
      account.balance.val, 0 ≤ balance :=
    List.forall_mem_map.mpr fun other listed => solvent other (List.mem_of_mem_erase listed)
  have second := List.single_le_sum others account'.balance.val
    (List.mem_map_of_mem ((List.mem_erase_of_ne apart).mpr member'))
  rw [supply, ← List.sum_map_erase (fun account => account.balance.val) member]
  exact Int.add_le_add_left second _

end Solvent

end Store

section Writing

/-- The account that is written, if one is. -/
def Write.account? : Write → Option Account
  | .addAccount account | .updateAccount account => some account
  | .addDomain _ | .updateDomain _ | .addGroup _ | .updateGroup _ | .issueTokens _
  | .transferToken _ _ _ => none

variable {store : Store} {context : Context} {action : Action} {plan : Plan}

theorem Store.Solvent.written (solvent : store.Solvent) {write : Write}
    (nonneg : ∀ account, write.account? = some account → 0 ≤ account.balance.val) :
    (store.written write).Solvent := by
  intro account member
  have found := Table.mem_toList_iff.mp member
  rcases Store.get?_accounts_written found with rfl | rfl | there
  · exact nonneg account rfl
  · exact nonneg account rfl
  · exact solvent.get? there

theorem Store.Solvent.rewritten (solvent : store.Solvent) {writes : List Write}
    (nonneg : ∀ write ∈ writes, ∀ account, write.account? = some account →
      0 ≤ account.balance.val) : (store.rewritten writes).Solvent := by
  induction writes generalizing store with
  | nil => exact solvent
  | cons write rest inductionHypothesis =>
      obtain ⟨first, others⟩ := List.forall_mem_cons.mp nonneg
      exact inductionHypothesis (solvent.written first) others

/-- Where nobody is in debt, no action plans to put anybody into debt. -/
theorem Action.nonneg_of_settle (solvent : store.Solvent)
    (settled : (action.plan context).settle store = .ok plan) :
    ∀ write ∈ plan.writes, ∀ account, write.account? = some account → 0 ≤ account.balance.val := by
  cases action with
  | newDomain action =>
      obtain ⟨-, -, -, -, -, -, rfl⟩ := NewDomain.settle_plan_eq_ok_iff.mp settled
      simp [Plan.writes, Write.account?]
  | updateDomain action =>
      obtain ⟨stored, -, -, -, -, -, rfl⟩ := UpdateDomain.settle_plan_eq_ok_iff.mp settled
      simp [Plan.writes, Write.account?]
  | issueTokens action =>
      obtain ⟨-, -, -, -, rfl⟩ := IssueTokens.settle_plan_eq_ok_iff.mp settled
      simp [Plan.writes, Write.account?]
  | transferToken action =>
      obtain ⟨-, rfl⟩ := TransferToken.settle_plan_eq_ok_iff.mp settled
      simp [Plan.writes, Write.account?]
  | updateGroup action =>
      obtain ⟨stored, -, -, -, rfl⟩ := UpdateGroup.settle_plan_eq_ok_iff.mp settled
      simp [Plan.writes, Write.account?]
  | newAccount action =>
      obtain ⟨-, -, checked, rfl⟩ := NewAccount.settle_plan_eq_ok_iff.mp settled
      have nonneg := (Config.check_eq_ok_iff.mp checked).2
      simpa [Plan.writes, Write.account?, NewAccount.record] using nonneg
  | updateOwner action =>
      obtain ⟨stored, found, -, rfl⟩ := UpdateOwner.settle_plan_eq_ok_iff.mp settled
      have nonneg := solvent.get? found
      simpa [Plan.writes, Write.account?] using nonneg
  | transferBalance action =>
      obtain ⟨source, target, debited, credited, foundSource, foundTarget, positive, -, enough,
        debit, credit, rfl⟩ := TransferBalance.settle_plan_eq_ok_iff.mp settled
      have left := Amount.sub?_eq_some_iff.mp debit
      have gained := Amount.add?_eq_some_iff.mp credit
      have payee := solvent.get? foundTarget
      have positive : 0 < action.amount.val := decide_eq_true_iff.mp positive
      rw [Amount.le_iff_val] at enough
      have debited_nonneg : 0 ≤ debited.val := by omega
      have credited_nonneg : 0 ≤ credited.val := by omega
      simpa [Plan.writes, Write.account?] using ⟨debited_nonneg, credited_nonneg⟩

/-- Whatever an action comes to, and whatever faults the store has, nobody gets into debt. -/
theorem Store.Solvent.apply {φ : Type} [FaultSource φ] (solvent : store.Solvent)
    (context : Context) (action : Action) (faults : φ) :
    (action.apply context store faults).store.Solvent := by
  rcases action.apply_cases context store faults with
    refuses | ⟨plan, done, rest, settled, split, makes⟩
  · rwa [refuses.store]
  · have nonneg := Action.nonneg_of_settle solvent (Action.settle_validate_eq_ok_iff.mp settled).2
    rw [makes.store]
    apply solvent.rewritten
    intro write member
    exact nonneg write (split ▸ List.mem_append_left rest member)

theorem Store.Solvent.replay (solvent : store.Solvent) (steps : List Step) :
    (store.replay steps).Solvent :=
  Store.replay_induction solvent
    (fun _ step solvent => solvent.apply step.context step.action NoFaults.mk) steps

/-- An action that goes through keeps the supply, unless it opens an account. -/
theorem Action.supply_of_completed {φ : Type} [FaultSource φ] {faults : φ}
    (finished : (action.apply context store faults).result = .ok ())
    (other : ∀ opening, action ≠ .newAccount opening) :
    (action.apply context store faults).store.supply = store.supply := by
  apply (Passage.accounted ⟨context, action⟩ store faults).kept (Passage.not_opens_of_ne other)
  rintro transfer ⟨-, -, -, error, -, failed⟩
  exact nomatch finished.symm.trans failed

end Writing

/-- A total that is reported is the supply. Where nobody is in debt, which is so after every run of
a ledger that starts out empty, none is reported just if the supply is out of range. Then the names
of the accounts, and with them the order of adding up, do not matter, and no transfer that goes
through changes the report. -/
theorem Store.totalBalance?_tells_supply (store : Store) :
    (∀ total, store.totalBalance? = some total → total.val = store.supply) ∧
      (store.Solvent →
        (store.totalBalance? = none ↔ 9223372036854775807 < store.supply) ∧
        (∀ other : Store, other.balances.Perm store.balances →
          other.totalBalance? = store.totalBalance?) ∧
        ∀ {φ : Type} [FaultSource φ] (context : Context) (transfer : TransferBalance) (faults : φ),
          let outcome := (Action.transferBalance transfer).apply context store faults
          outcome.result = .ok () → outcome.store.totalBalance? = store.totalBalance?) ∧
      ∀ steps, (Store.empty.replay steps).Solvent := by
  refine ⟨fun total => supply_eq_of_totalBalance?,
    fun solvent => ⟨?none, ?order, ?transfers⟩, ?runs⟩
  case none => exact solvent.totalBalance?_eq_none_iff
  case order =>
    intro other reordered
    refine solvent.totalBalance?_congr (solvent.of_perm reordered) ?_
    rw [supply_eq_sum, supply_eq_sum, (reordered.map Amount.val).sum_eq]
  case transfers =>
    intro φ _ context transfer faults outcome finished
    refine solvent.totalBalance?_congr (solvent.apply context _ faults) ?_
    exact Action.supply_of_completed finished fun opening => nofun
  case runs => exact fun steps => Solvent.empty.replay steps

/-- With debts the order matters: no total is reported here, though the supply is in range. -/
example :
    let noon : Instant := ⟨⟨2018, 5, 1, by decide⟩, 12, 0, 0, 0⟩
    let account (name : String) (balance : Amount) : Account :=
      ⟨⟨name⟩, ⟨"evt"⟩, noon, balance, .zero, [⟨"k"⟩]⟩
    let store := Store.empty.rewritten
      [.addAccount (account "a" ⟨9223372036854775807, by decide, by decide⟩),
        .addAccount (account "b" ⟨1, by decide, by decide⟩),
        .addAccount (account "c" ⟨-1, by decide, by decide⟩)]
    store.totalBalance? = none ∧ store.supply = 9223372036854775807 := by decide +kernel

namespace TransferBalance

variable {action : TransferBalance} {context : Context} {store : Store} {source target : Account}

/-- While a total is reported, what the source has can be credited to the target. -/
theorem Covered.acceptable (covered : action.Covered context store source target)
    (solvent : store.Solvent) (reported : store.totalBalance? ≠ none) :
    action.Acceptable context store source target where
  toCovered := covered
  in_range := by
    have together :=
      solvent.add_le_supply covered.different covered.source_stored covered.target_stored
    have sufficient := covered.sufficient
    have bounded : store.supply ≤ 9223372036854775807 :=
      Int.not_lt.mp (mt solvent.totalBalance?_eq_none_iff.mpr reported)
    omega

theorem message_ne_of_begins {reason : Reason} {initial : Char}
    (begins : reason.message.toList.head? = some initial) (other : initial ≠ 'O') :
    reason.message ≠ Reason.balanceOverflow.message := by
  intro same
  rw [same] at begins
  exact other (Option.some.inj begins).symm

theorem head?_account (name : Name) (predicate : String) :
    ("Account " ++ name.text ++ predicate).toList.head? = some 'A' := by
  simp

/-- No other reason that a transfer may be rejected for is worded like that of the range. -/
theorem message_ne_of_mem_coverage :
    ∀ requirement ∈ action.coverage context store,
      requirement.reason.message ≠ Reason.balanceOverflow.message := by
  have account {reason : Reason} (name : Name) (predicate : String)
      (worded : reason.message = "Account " ++ name.text ++ predicate) :
      reason.message ≠ Reason.balanceOverflow.message :=
    message_ne_of_begins (worded ▸ head?_account name predicate) (by decide)
  simp only [coverage, List.forall_mem_cons]
  refine ⟨?authority, ?source, ?target, ?amount, ?self, ?balance, List.forall_mem_nil _⟩
  case authority => exact message_ne_of_begins rfl (by decide)
  case source => exact account action.source " don't exist" rfl
  case target => exact account action.target " don't exist" rfl
  case amount => exact message_ne_of_begins rfl (by decide)
  case self => exact account action.source " cannot transfer to itself" rfl
  case balance => exact account action.source " don't have enough balance left" rfl

theorem message_ne_of_reported (solvent : store.Solvent) (reported : store.totalBalance? ≠ none)
    {failure : Failure}
    (failed : ((Action.transferBalance action).apply context store NoFaults.mk).result =
      .error failure) : failure.message ≠ Reason.balanceOverflow.message := by
  rcases (Action.transferBalance action).apply_noFaults_cases context store with
    ⟨refusal, settled, result, -⟩ | ⟨plan, -, finished, -⟩
  · cases Except.error.inj (failed.symm.trans result)
    obtain ⟨planned, judges⟩ := action.judges_validate context store
    obtain ⟨broken, first, rfl⟩ := judges.eq_error_iff.mp settled
    rcases List.mem_append.mp first.mem with earlier | last
    · exact message_ne_of_mem_coverage broken earlier
    · obtain rfl := List.mem_singleton.mp last
      obtain ⟨source, target, covered, leaves⟩ :=
        exists_isFirstBroken_balanceOverflow_iff.mp ⟨_, first, rfl⟩
      have in_range := (covered.acceptable solvent reported).in_range
      omega
  · exact nomatch failed.symm.trans finished

end TransferBalance

/-- While the total of a ledger that started out empty is reported, no transfer is rejected for the
range, and an account may transfer up to what it has. And only opening an account can put an end to
that. -/
theorem Store.replay_transfers (steps : List Step)
    (reported : (Store.empty.replay steps).totalBalance? ≠ none) :
    let store := Store.empty.replay steps
    (∀ (context : Context) (transfer : TransferBalance),
        let outcome := (Action.transferBalance transfer).apply context store NoFaults.mk
        (∀ failure, outcome.result = .error failure →
          failure.message ≠ Reason.balanceOverflow.message) ∧
        ∀ source target, context.authorized (.account transfer.source) = true →
          store.accounts.get? transfer.source = some source →
          store.accounts.get? transfer.target = some target → 0 < transfer.amount.val →
          transfer.source ≠ transfer.target →
          (outcome.result = .ok () ↔ transfer.amount ≤ source.balance)) ∧
      ∀ step, (store.after step).totalBalance? = none →
        (∃ opening, step.action = .newAccount opening) ∧
          (step.action.apply step.context store NoFaults.mk).result = .ok () := by
  intro store
  have solvent : store.Solvent := Solvent.empty.replay steps
  refine ⟨fun context transfer => ⟨?message, ?succeeds⟩, ?ends⟩
  case message =>
    intro failure failed
    exact TransferBalance.message_ne_of_reported solvent reported failed
  case succeeds =>
    intro source target authorized foundSource foundTarget positive different
    constructor
    · intro finished
      obtain ⟨payer, payee, acceptable⟩ := TransferBalance.result_eq_ok_iff.mp finished
      cases Option.some.inj (foundSource.symm.trans acceptable.source_stored)
      exact acceptable.sufficient
    · intro sufficient
      have covered : transfer.Covered context store source target :=
        ⟨authorized, foundSource, foundTarget, positive, different, sufficient⟩
      exact TransferBalance.result_eq_ok_iff.mpr
        ⟨source, target, covered.acceptable solvent reported⟩
  case ends =>
    intro step unreported
    rcases step.action.apply_noFaults_cases step.context store with
      ⟨failure, -, -, same⟩ | ⟨plan, -, finished, -⟩
    · have same : store.after step = store := same
      rw [same] at unreported
      exact absurd unreported reported
    · refine ⟨?_, finished⟩
      by_contra other
      have kept : (store.after step).supply = store.supply :=
        Action.supply_of_completed finished (not_exists.mp other)
      have solvent' : (store.after step).Solvent :=
        solvent.apply step.context step.action NoFaults.mk
      exact reported ((solvent.totalBalance?_congr solvent' kept).symm.trans unreported)

theorem Store.replay_transfers_to_the_limit :
    let noon : Instant := ⟨⟨2018, 5, 1, by decide⟩, 12, 0, 0, 0⟩
    let half : Amount := ⟨4611686018427387903, by decide, by decide⟩
    let context : Context := ⟨fun _ => true, noon, { Config.standard with initialBalance := half }⟩
    let opening (name : String) : Step := ⟨context, .newAccount ⟨⟨name⟩, [⟨"k"⟩]⟩⟩
    let account (name : String) : Account := ⟨⟨name⟩, ⟨"evt"⟩, noon, half, .zero, [⟨"k"⟩]⟩
    let store := Store.empty.replay [opening "a", opening "b"]
    let transfer : TransferBalance := ⟨⟨"a"⟩, ⟨"b"⟩, half⟩
    let outcome := (Action.transferBalance transfer).apply context store NoFaults.mk
    store.totalBalance? ≠ none ∧ store.accounts.get? ⟨"a"⟩ = some (account "a") ∧
      store.accounts.get? ⟨"b"⟩ = some (account "b") ∧ outcome.result = .ok () ∧
      (store.after (opening "c")).totalBalance? = none ∧
      ∃ opened, (opening "c").action = .newAccount opened := by
  intro noon half context opening account store transfer outcome
  have reported : store.totalBalance? ≠ none := by decide +kernel
  have foundSource : store.accounts.get? ⟨"a"⟩ = some (account "a") := by decide +kernel
  have foundTarget : store.accounts.get? ⟨"b"⟩ = some (account "b") := by decide +kernel
  have unreported : (store.after (opening "c")).totalBalance? = none := by decide +kernel
  obtain ⟨transfers, ends⟩ := replay_transfers [opening "a", opening "b"] reported
  obtain ⟨-, succeeds⟩ := transfers context transfer
  have finished : outcome.result = .ok () :=
    (succeeds (account "a") (account "b") rfl foundSource foundTarget (by decide) (by decide)).mpr
      (Int.le_refl _)
  obtain ⟨opened, -⟩ := ends (opening "c") unreported
  exact ⟨reported, foundSource, foundTarget, finished, unreported, opened⟩

end TokenLedger
