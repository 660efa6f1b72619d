import Mathlib.Algebra.BigOperators.Group.List.Basic
import Mathlib.Algebra.Ring.Int.Defs
import TokenLedger.Proofs.History
import TokenLedger.Proofs.Transfers

/-!
Rows of transfers.

A transfer that goes through adds to one balance what it takes from another, and does nothing else
(`TransferBalance.applies_iff`). So a row of transfers adds to every balance the sum of what each of
them adds (`Store.Leads.rebalances`). Neither the order of the transfers matters
(`TransferBalance.replay_perm`), nor whether an amount is moved at once or in two parts
(`TransferBalance.apply_split`).
-/

set_option autoImplicit false

namespace TokenLedger

/-- How much more the account of that name holds after the transfer. -/
def TransferBalance.gain (transfer : TransferBalance) (name : Name) : Int :=
  (if transfer.target = name then transfer.amount.val else 0) -
    if transfer.source = name then transfer.amount.val else 0

/-- The account holds that much more, and is as it was but for that. -/
def Account.Gains (account : Account) (gain : Int) (after : Account) : Prop :=
  ∃ balance : Amount, balance.val = account.balance.val + gain ∧ after = { account with balance }

/-- Every account gains its share, and nothing else changes. -/
structure Store.Rebalances (store : Store) (gain : Name → Int) (after : Store) : Prop where
  domains : after.domains = store.domains
  groups : after.groups = store.groups
  tokens : after.tokens = store.tokens
  missing : ∀ name, store.accounts.get? name = none → after.accounts.get? name = none
  stored : ∀ name account, store.accounts.get? name = some account →
    ∃ kept, after.accounts.get? name = some kept ∧ account.Gains (gain name) kept

namespace Account.Gains

variable {account middle after other : Account} {gain more : Int}

theorem zero (account : Account) : account.Gains 0 account :=
  ⟨account.balance, (Int.add_zero _).symm, rfl⟩

theorem trans (first : account.Gains gain middle) (second : middle.Gains more after) :
    account.Gains (gain + more) after := by
  obtain ⟨balance, exact, rfl⟩ := first
  obtain ⟨balance', exact', rfl⟩ := second
  exact ⟨balance', by rw [exact', exact, Int.add_assoc], rfl⟩

theorem unique (first : account.Gains gain after) (second : account.Gains gain other) :
    after = other := by
  obtain ⟨balance, exact, rfl⟩ := first
  obtain ⟨balance', exact', rfl⟩ := second
  have same : balance = balance' := Amount.ext (exact.trans exact'.symm)
  rw [same]

theorem balance_val (gains : account.Gains gain after) :
    after.balance.val = account.balance.val + gain := by
  obtain ⟨balance, exact, rfl⟩ := gains
  exact exact

end Account.Gains

namespace Store.Rebalances

variable {store middle after other : Store} {gain more : Name → Int}

theorem zero (store : Store) : store.Rebalances (fun _ => 0) store where
  domains := rfl
  groups := rfl
  tokens := rfl
  missing _ absent := absent
  stored _ account found := ⟨account, found, .zero account⟩

theorem trans (first : store.Rebalances gain middle) (second : middle.Rebalances more after) :
    store.Rebalances (fun name => gain name + more name) after where
  domains := second.domains.trans first.domains
  groups := second.groups.trans first.groups
  tokens := second.tokens.trans first.tokens
  missing name absent := second.missing name (first.missing name absent)
  stored name account found := by
    obtain ⟨kept, there, gains⟩ := first.stored name account found
    obtain ⟨last, left, others⟩ := second.stored name kept there
    exact ⟨last, left, gains.trans others⟩

/-- What every account gains determines the store that is left. -/
theorem unique (first : store.Rebalances gain after) (second : store.Rebalances gain other) :
    after = other := by
  have accounts (name : Name) : after.accounts.get? name = other.accounts.get? name := by
    cases found : store.accounts.get? name with
    | none => rw [first.missing name found, second.missing name found]
    | some account =>
        obtain ⟨kept, there, gains⟩ := first.stored name account found
        obtain ⟨kept', there', gains'⟩ := second.stored name account found
        rw [there, there', gains.unique gains']
  apply Store.ext_get?
  · intro name
    rw [first.domains, second.domains]
  · intro id
    rw [first.groups, second.groups]
  · intro key
    rw [first.tokens, second.tokens]
  · exact accounts

end Store.Rebalances

namespace TransferBalance

variable {action : TransferBalance} {context : Context} {store after : Store} {plan : Plan}

section Steps

variable {source target debited credited : Account}

theorem gain_source (different : action.source ≠ action.target) :
    action.gain action.source = -action.amount.val := by
  simp [gain, different.symm]

theorem gain_target (different : action.source ≠ action.target) :
    action.gain action.target = action.amount.val := by
  simp [gain, different]

theorem gain_of_ne {name : Name} (spared : action.source ≠ name) (unaided : action.target ≠ name) :
    action.gain name = 0 := by
  simp [gain, spared, unaided]

theorem Moves.get?_rewritten (moves : action.Moves store source target debited credited)
    (name : Name) :
    (store.rewritten (Plan.transferBalance debited credited).writes).accounts.get? name =
      if action.target = name then some credited
      else if action.source = name then some debited else store.accounts.get? name := by
  simp [Plan.writes, Store.written, moves.debited_name, moves.credited_name]

theorem Moves.stored (moves : action.Moves store source target debited credited) {name : Name}
    {account : Account} (found : store.accounts.get? name = some account) :
    ∃ kept, (store.rewritten (Plan.transferBalance debited credited).writes).accounts.get? name =
      some kept ∧ account.Gains (action.gain name) kept := by
  rw [moves.get?_rewritten]
  by_cases credits : action.target = name
  · subst credits
    cases Option.some.inj (found.symm.trans moves.target_stored)
    refine ⟨credited, if_pos rfl, credited.balance, ?_, moves.credited_eq⟩
    rw [gain_target moves.different, moves.credited_val]
  · rw [if_neg credits]
    by_cases debits : action.source = name
    · subst debits
      cases Option.some.inj (found.symm.trans moves.source_stored)
      refine ⟨debited, if_pos rfl, debited.balance, ?_, moves.debited_eq⟩
      rw [gain_source moves.different, moves.debited_val, Int.sub_eq_add_neg]
    · rw [if_neg debits, gain_of_ne debits credits]
      exact ⟨account, found, .zero account⟩

theorem Moves.rebalances (moves : action.Moves store source target debited credited) :
    store.Rebalances action.gain
      (store.rewritten (Plan.transferBalance debited credited).writes) where
  domains := rfl
  groups := rfl
  tokens := rfl
  missing name absent := by
    have credits : action.target ≠ name := by
      rintro rfl
      exact Option.some_ne_none _ (moves.target_stored.symm.trans absent)
    have debits : action.source ≠ name := by
      rintro rfl
      exact Option.some_ne_none _ (moves.source_stored.symm.trans absent)
    rw [moves.get?_rewritten, if_neg credits, if_neg debits, absent]
  stored _ _ found := moves.stored found

theorem rebalances_of_settle
    (settled : ((Action.transferBalance action).validate context).settle store = .ok plan) :
    store.Rebalances action.gain (store.rewritten plan.writes) := by
  obtain ⟨source, target, debited, credited, moves, rfl⟩ :=
    moves_of_settle (Action.settle_validate_eq_ok_iff.mp settled).2
  exact moves.rebalances

/-- A transfer goes through just if it is acceptable, and moves its amount and nothing else. -/
theorem applies_iff :
    ((Action.transferBalance action).apply context store NoFaults.mk).result = .ok () ∧
        ((Action.transferBalance action).apply context store NoFaults.mk).store = after ↔
      (∃ source target, action.Acceptable context store source target) ∧
        store.Rebalances action.gain after := by
  constructor
  · rintro ⟨finished, left⟩
    rcases (Action.transferBalance action).apply_noFaults_cases context store with
      ⟨failure, -, refused, -⟩ | ⟨plan, settled, -, carried⟩
    · exact nomatch finished.symm.trans refused
    · obtain ⟨source, target, -, -, acceptable, -⟩ := settle_validate_iff_acceptable.mp settled
      refine ⟨⟨source, target, acceptable⟩, ?_⟩
      rw [← left, carried]
      exact rebalances_of_settle settled
  · rintro ⟨⟨source, target, acceptable⟩, rebalances⟩
    obtain ⟨plan, settled⟩ := acceptable.settles
    obtain ⟨finished, carried⟩ := Action.apply_of_planned settled
    -- There is one store that is rebalanced so, and carrying out the plan leaves one.
    exact ⟨finished, carried.trans ((rebalances_of_settle settled).unique rebalances)⟩

theorem result_eq_ok_iff :
    ((Action.transferBalance action).apply context store NoFaults.mk).result = .ok () ↔
      ∃ source target, action.Acceptable context store source target :=
  ⟨fun finished => (applies_iff.mp ⟨finished, rfl⟩).1, fun ⟨source, target, acceptable⟩ => by
    obtain ⟨plan, settled⟩ := acceptable.settles
    exact (Action.apply_of_planned settled).1⟩

end Steps

/-- Without faults a transfer goes through, or it is rejected. -/
theorem completes_or_rejected (action : TransferBalance) (context : Context) (store : Store) :
    ((Action.transferBalance action).apply context store NoFaults.mk).result = .ok () ∨
      ∃ rejection, ((Action.transferBalance action).apply context store NoFaults.mk).result =
        .error (.rejected rejection) := by
  rcases (Action.transferBalance action).apply_noFaults_cases context store with
    ⟨failure, settled, result, -⟩ | ⟨plan, -, finished, -⟩
  · obtain ⟨planned, judges⟩ := action.judges_validate context store
    obtain ⟨broken, -, rfl⟩ := judges.eq_error_iff.mp settled
    exact .inr ⟨_, result⟩
  · exact .inl finished

section Rows

/-- How much more the account of that name holds after all these transfers. -/
def gains (transfers : List TransferBalance) (name : Name) : Int :=
  (transfers.map fun transfer => transfer.gain name).sum

theorem gains_perm {transfers transfers' : List TransferBalance}
    (reordered : transfers.Perm transfers') :
    gains transfers = gains transfers' := by
  funext name
  exact (reordered.map fun transfer => transfer.gain name).sum_eq

/-- A row of transfers that goes through adds up what each of them moves. -/
theorem rebalances_of_leads {transfers : List TransferBalance} {steps : List Step}
    (row : steps.map Step.action = transfers.map .transferBalance)
    (leads : store.Leads steps after) :
    store.Rebalances (gains transfers) after := by
  induction transfers generalizing store steps with
  | nil =>
      obtain rfl := List.map_eq_nil_iff.mp row
      obtain rfl := Store.leads_nil_iff.mp leads
      exact .zero store
  | cons transfer rest inductionHypothesis =>
      obtain ⟨⟨context, action⟩, steps, rfl, rfl, others⟩ := List.map_eq_cons_iff.mp row
      obtain ⟨plan, settled, leads⟩ := Store.leads_cons_iff.mp leads
      exact (rebalances_of_settle settled).trans (inductionHypothesis others leads)

/-- Transfers that all go through in two orders leave the same store in both, whoever may make them.
-/
theorem replay_perm {φ φ' : Type} [FaultSource φ] [FaultSource φ']
    {transfers transfers' : List TransferBalance} (reordered : transfers.Perm transfers')
    {steps steps' : List Step} (row : steps.map Step.action = transfers.map .transferBalance)
    (row' : steps'.map Step.action = transfers'.map .transferBalance) (store : Store)
    (faults : φ) (faults' : φ')
    (completes : ∀ passage ∈ store.passages steps faults, passage.outcome.result = .ok ())
    (completes' : ∀ passage ∈ store.passages steps' faults', passage.outcome.result = .ok ()) :
    store.replayWith steps faults = store.replayWith steps' faults' := by
  have first : store.Rebalances (gains transfers) (store.replayWith steps faults) :=
    rebalances_of_leads row (Store.leads_of_passages completes)
  have second : store.Rebalances (gains transfers') (store.replayWith steps' faults') :=
    rebalances_of_leads row' (Store.leads_of_passages completes')
  rw [gains_perm reordered] at first
  exact first.unique second

theorem replay_perm_of_circle :
    let noon : Instant := ⟨⟨2018, 5, 1, by decide⟩, 12, 0, 0, 0⟩
    let context : Context := ⟨fun _ => true, noon, .standard⟩
    let account (name : String) (balance : Amount) : Account :=
      ⟨⟨name⟩, ⟨"evt"⟩, noon, balance, .zero, [⟨"k"⟩]⟩
    let store := Store.empty.rewritten
      [.addAccount (account "a" ⟨3, by decide, by decide⟩),
        .addAccount (account "b" ⟨1, by decide, by decide⟩),
        .addAccount (account "c" ⟨-1, by decide, by decide⟩)]
    let ab : TransferBalance := ⟨⟨"a"⟩, ⟨"b"⟩, ⟨3, by decide, by decide⟩⟩
    let bc : TransferBalance := ⟨⟨"b"⟩, ⟨"c"⟩, ⟨1, by decide, by decide⟩⟩
    let ba : TransferBalance := ⟨⟨"b"⟩, ⟨"a"⟩, ⟨1, by decide, by decide⟩⟩
    let step (transfer : TransferBalance) : Step := ⟨context, .transferBalance transfer⟩
    let steps := [ab, bc, ba].map step
    let steps' := [bc, ab, ba].map step
    let faults : List Fault := [⟨.updateAccount, 6, .storage "lost"⟩]
    [ab, bc, ba].Perm [bc, ab, ba] ∧
      steps.map Step.action = [ab, bc, ba].map .transferBalance ∧
      steps'.map Step.action = [bc, ab, ba].map .transferBalance ∧
      (∀ passage ∈ store.passages steps NoFaults.mk, passage.outcome.result = .ok ()) ∧
      (∀ passage ∈ store.passages steps' faults, passage.outcome.result = .ok ()) ∧
      store.replayWith steps NoFaults.mk = store.replayWith steps' faults := by
  intro noon context account store ab bc ba step steps steps' faults
  have reordered : [ab, bc, ba].Perm [bc, ab, ba] := .swap _ _ _
  have row : steps.map Step.action = [ab, bc, ba].map .transferBalance := rfl
  have row' : steps'.map Step.action = [bc, ab, ba].map .transferBalance := rfl
  have fine : ∀ passage ∈ store.passages steps NoFaults.mk, passage.outcome.result.isOk = true := by
    decide +kernel
  have fine' : ∀ passage ∈ store.passages steps' faults, passage.outcome.result.isOk = true := by
    decide +kernel
  clear_value steps steps' store faults
  have completes := fun passage member => eq_ok_of_isOk (fine passage member)
  have completes' := fun passage member => eq_ok_of_isOk (fine' passage member)
  exact ⟨reordered, row, row', completes, completes',
    replay_perm reordered row row' store NoFaults.mk faults completes completes'⟩

end Rows

section Splitting

variable {source target : Name} {part rest whole : Amount} {early late : Context} {middle : Store}
  {payer payee : Account}

/-- Whoever may transfer the whole may transfer a part of it. -/
theorem Acceptable.partly
    (acceptable : (⟨source, target, whole⟩ : TransferBalance).Acceptable context store payer payee)
    (oracle : early.authorized = context.authorized) (positive : 0 < part.val)
    (smaller : part.val ≤ whole.val) :
    (⟨source, target, part⟩ : TransferBalance).Acceptable early store payer payee where
  authorized := oracle ▸ acceptable.authorized
  source_stored := acceptable.source_stored
  target_stored := acceptable.target_stored
  positive := positive
  different := acceptable.different
  sufficient := Int.le_trans smaller acceptable.sufficient
  in_range := Int.le_trans (Int.add_le_add_left smaller _) acceptable.in_range

/-- Once a part is transferred, what is left to transfer is acceptable just if the whole was. -/
theorem acceptable_rest_iff
    (first : (⟨source, target, part⟩ : TransferBalance).Acceptable early store payer payee)
    (moved : store.Rebalances (⟨source, target, part⟩ : TransferBalance).gain middle)
    (sum : part.val + rest.val = whole.val) (positive : 0 < rest.val)
    (oracle : late.authorized = context.authorized) :
    (∃ payer payee, (⟨source, target, rest⟩ : TransferBalance).Acceptable late middle payer payee) ↔
      (⟨source, target, whole⟩ : TransferBalance).Acceptable context store payer payee := by
  obtain ⟨debited, foundSource, loss⟩ := moved.stored source payer first.source_stored
  obtain ⟨credited, foundTarget, profit⟩ := moved.stored target payee first.target_stored
  have debited_val := loss.balance_val
  have credited_val := profit.balance_val
  rw [gain_source first.different] at debited_val
  rw [gain_target first.different] at credited_val
  have part_positive := first.positive
  -- Both balances are off by the part, and the two bounds for the whole are those for the rest.
  dsimp only at debited_val credited_val part_positive
  constructor
  · rintro ⟨payer', payee', second⟩
    cases Option.some.inj (foundSource.symm.trans second.source_stored)
    cases Option.some.inj (foundTarget.symm.trans second.target_stored)
    have sufficient := second.sufficient
    have in_range := second.in_range
    dsimp only at sufficient in_range
    exact { first with
      authorized := oracle ▸ second.authorized
      positive := by dsimp only; omega
      sufficient := by dsimp only; omega
      in_range := by dsimp only; omega }
  · intro acceptable
    have sufficient := acceptable.sufficient
    have in_range := acceptable.in_range
    dsimp only at sufficient in_range
    exact ⟨debited, credited, {
      authorized := oracle ▸ acceptable.authorized
      source_stored := foundSource
      target_stored := foundTarget
      positive := positive
      different := first.different
      sufficient := by dsimp only; omega
      in_range := by dsimp only; omega }⟩

theorem gain_add_gain (sum : part.val + rest.val = whole.val) :
    (fun name => (⟨source, target, part⟩ : TransferBalance).gain name +
        (⟨source, target, rest⟩ : TransferBalance).gain name) =
      (⟨source, target, whole⟩ : TransferBalance).gain := by
  funext name
  simp only [gain]
  split <;> split <;> omega

/-- An amount is transferred in two parts just if it can be transferred at once, by the same
authority, and both ways leave the same store. So if the whole is rejected, one of the parts is. -/
theorem apply_split (source target : Name) (part_positive : 0 < part.val)
    (rest_positive : 0 < rest.val) (sum : part.add? rest = some whole)
    (early_oracle : early.authorized = context.authorized)
    (late_oracle : late.authorized = context.authorized) (store : Store) :
    let transfer (amount : Amount) : Action := .transferBalance ⟨source, target, amount⟩
    let undivided := (transfer whole).apply context store NoFaults.mk
    let first := (transfer part).apply early store NoFaults.mk
    let second := (transfer rest).apply late first.store NoFaults.mk
    (first.result = .ok () ∧ second.result = .ok () ↔ undivided.result = .ok ()) ∧
      (undivided.result = .ok () → second.store = undivided.store) ∧
      ((∃ rejection, undivided.result = .error (.rejected rejection)) →
        (∃ rejection, first.result = .error (.rejected rejection)) ∨
          ∃ rejection, second.result = .error (.rejected rejection)) := by
  intro transfer undivided first second
  have sum := Amount.add?_eq_some_iff.mp sum
  have together : first.result = .ok () ∧ second.result = .ok () ↔ undivided.result = .ok () := by
    constructor
    · rintro ⟨finished, later⟩
      obtain ⟨⟨payer, payee, acceptable⟩, moved⟩ := applies_iff.mp ⟨finished, rfl⟩
      have rest := result_eq_ok_iff.mp later
      exact result_eq_ok_iff.mpr
        ⟨payer, payee, (acceptable_rest_iff acceptable moved sum rest_positive late_oracle).mp rest⟩
    · intro finished
      obtain ⟨payer, payee, acceptable⟩ := result_eq_ok_iff.mp finished
      have start := acceptable.partly early_oracle part_positive (by omega)
      have finished : first.result = .ok () := result_eq_ok_iff.mpr ⟨payer, payee, start⟩
      obtain ⟨-, moved⟩ := applies_iff.mp ⟨finished, rfl⟩
      refine ⟨finished, result_eq_ok_iff.mpr ?_⟩
      exact (acceptable_rest_iff start moved sum rest_positive late_oracle).mpr acceptable
  refine ⟨together, ?same, ?rejected⟩
  case same =>
    intro finished
    obtain ⟨begun, ended⟩ := together.mpr finished
    obtain ⟨-, moved⟩ := applies_iff.mp ⟨begun, rfl⟩
    obtain ⟨-, moved'⟩ := applies_iff.mp ⟨ended, rfl⟩
    obtain ⟨-, whole⟩ := applies_iff.mp ⟨finished, rfl⟩
    have parts := moved.trans moved'
    rw [gain_add_gain sum] at parts
    exact parts.unique whole
  case rejected =>
    rintro ⟨rejection, rejected⟩
    rcases completes_or_rejected ⟨source, target, part⟩ early store with begun | refused
    · rcases completes_or_rejected ⟨source, target, rest⟩ late first.store with ended | refused
      · exact nomatch rejected.symm.trans (together.mp ⟨begun, ended⟩)
      · exact .inr refused
    · exact .inl refused

theorem apply_split_to_the_limits :
    let noon : Instant := ⟨⟨2018, 5, 1, by decide⟩, 12, 0, 0, 0⟩
    let evening : Instant := ⟨⟨2018, 5, 1, by decide⟩, 18, 0, 0, 0⟩
    let context : Context := ⟨fun scope => scope = .account ⟨"a"⟩, noon, .standard⟩
    let late : Context := { context with time := evening }
    let account (name : String) (balance : Amount) : Account :=
      ⟨⟨name⟩, ⟨"evt"⟩, noon, balance, .zero, [⟨"k"⟩]⟩
    let store := Store.empty.rewritten
      [.addAccount (account "a" ⟨5, by decide, by decide⟩),
        .addAccount (account "b" ⟨9223372036854775802, by decide, by decide⟩)]
    let part : Amount := ⟨2, by decide, by decide⟩
    let rest : Amount := ⟨3, by decide, by decide⟩
    let whole : Amount := ⟨5, by decide, by decide⟩
    let transfer (amount : Amount) : Action := .transferBalance ⟨⟨"a"⟩, ⟨"b"⟩, amount⟩
    let undivided := (transfer whole).apply context store NoFaults.mk
    let first := (transfer part).apply context store NoFaults.mk
    let second := (transfer rest).apply late first.store NoFaults.mk
    0 < part.val ∧ 0 < rest.val ∧ part.add? rest = some whole ∧
      late.authorized = context.authorized ∧ undivided.result = .ok () ∧
      first.result = .ok () ∧ second.result = .ok () ∧ second.store = undivided.store := by
  intro noon evening context late account store part rest whole transfer undivided first second
  have part_positive : 0 < part.val := by decide
  have rest_positive : 0 < rest.val := by decide
  have sum : part.add? rest = some whole := by decide
  have fine : undivided.result.isOk = true := by decide +kernel
  have finished := eq_ok_of_isOk fine
  have early_oracle : context.authorized = context.authorized := rfl
  have late_oracle : late.authorized = context.authorized := rfl
  obtain ⟨together, same, -⟩ := apply_split ⟨"a"⟩ ⟨"b"⟩ part_positive rest_positive sum early_oracle
    late_oracle store
  obtain ⟨begun, ended⟩ := together.mpr finished
  exact ⟨part_positive, rest_positive, sum, late_oracle, finished, begun, ended, same finished⟩

end Splitting

end TransferBalance

end TokenLedger
