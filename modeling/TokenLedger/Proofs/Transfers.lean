import TokenLedger.Proofs.DryRun
import TokenLedger.Proofs.Requirements

/-!
When a balance may be transferred, and what becomes of the two accounts.

The conditions are looked at in a fixed order (`TransferBalance.requirements`), and a rejection
tells of the first that does not hold (`TransferBalance.dryRun_moves_iff`). Sums and differences are
those of the integers. A balance that covers a positive amount never leaves the range when it is
debited, so it is the credit alone that can.
-/

set_option autoImplicit false

namespace TokenLedger

namespace Amount

variable {balance amount : Amount}

/-- A balance that covers a positive amount can be debited with it. -/
theorem exists_sub?_of_le (positive : 0 < amount.val) (covered : amount.val ≤ balance.val) :
    ∃ debited, balance.sub? amount = some debited ∧ debited.val = balance.val - amount.val := by
  have upper := balance.upper
  let debited : Amount := ⟨balance.val - amount.val, by omega, by omega⟩
  exact ⟨debited, sub?_eq_some_iff.mpr rfl, rfl⟩

/-- A balance can be credited with a positive amount up to the end of the range. -/
theorem exists_add?_iff (positive : 0 < amount.val) :
    (∃ credited, balance.add? amount = some credited ∧
        credited.val = balance.val + amount.val) ↔
      balance.val + amount.val ≤ 9223372036854775807 := by
  constructor
  · rintro ⟨credited, -, exact⟩
    rw [← exact]
    exact credited.upper
  · intro bounded
    have lower := balance.lower
    let credited : Amount := ⟨balance.val + amount.val, by omega, bounded⟩
    exact ⟨credited, add?_eq_some_iff.mpr rfl, rfl⟩

end Amount

namespace TransferBalance

/-- Everything is in order but for the range of the credit. -/
structure Covered (action : TransferBalance) (context : Context) (store : Store)
    (source target : Account) : Prop where
  authorized : context.authorized (.account action.source) = true
  source_stored : store.accounts.get? action.source = some source
  target_stored : store.accounts.get? action.target = some target
  positive : 0 < action.amount.val
  different : action.source ≠ action.target
  sufficient : action.amount.val ≤ source.balance.val

/-- The amount may be moved from the one account to the other. -/
structure Acceptable (action : TransferBalance) (context : Context) (store : Store)
    (source target : Account) : Prop extends action.Covered context store source target where
  in_range : target.balance.val + action.amount.val ≤ 9223372036854775807

/-- What is required before the credit is looked at, in the order in which it is looked at. -/
def coverage (action : TransferBalance) (context : Context) (store : Store) : List Requirement :=
  [⟨context.authorized (.account action.source) = true, .unauthorized⟩,
    ⟨store.accounts.contains action.source = true, .noAccount action.source⟩,
    ⟨store.accounts.contains action.target = true, .noAccount action.target⟩,
    ⟨0 < action.amount.val, .amountNotPositive⟩,
    ⟨action.source ≠ action.target, .transferToSelf action.source⟩,
    ⟨∀ source, store.accounts.get? action.source = some source →
      action.amount.val ≤ source.balance.val, .insufficientBalance action.source⟩]

/-- What is required of the action: last of all, that the credit stays in range. -/
def requirements (action : TransferBalance) (context : Context) (store : Store) :
    List Requirement :=
  action.coverage context store ++
    [⟨∀ target, store.accounts.get? action.target = some target →
      target.balance.val + action.amount.val ≤ 9223372036854775807, .balanceOverflow⟩]

/-- The two accounts after the transfer, as long as their balances stay in range. -/
def planned (action : TransferBalance) (source target : Account) : Plan :=
  .transferBalance
    { source with balance := (source.balance.sub? action.amount).getD .zero }
    { target with balance := (target.balance.add? action.amount).getD .zero }

variable (action : TransferBalance) (context : Context) (store : Store)

theorem judges_validate :
    ∃ plan, Judges plan (action.requirements context store)
      (((Action.transferBalance action).validate context).settle store) := by
  simp only [requirements, coverage, List.cons_append, List.nil_append, Action.validate,
    Action.plan, Check.settle_bind, plan, Check.settle_existsAccount, Check.settle_ensure, ok_bind]
  cases foundSource : store.accounts.get? action.source with
  | none =>
      have absent := Table.contains_eq_false_iff.mpr foundSource
      -- Nothing is planned unless both accounts are there, so any plan will do.
      refine ⟨.issueTokens [], (context.judges_require store _).bind ?_⟩
      rw [absent]
      exact .broken Bool.false_ne_true _
  | some source =>
      cases foundTarget : store.accounts.get? action.target with
      | none =>
          have absent := Table.contains_eq_false_iff.mpr foundTarget
          refine ⟨.issueTokens [], (context.judges_require store _).bind ?_⟩
          refine .ensure_bind Iff.rfl _ fun _ => ?_
          rw [absent]
          exact .broken Bool.false_ne_true _
      | some target =>
          refine ⟨action.planned source target, (context.judges_require store _).bind ?_⟩
          refine .ensure_bind Iff.rfl _ fun _ => .ensure_bind Iff.rfl _ fun _ => ?_
          refine .ensure_bind decide_eq_true_iff _ fun positive => ?_
          refine .ensure_bind decide_eq_true_iff _ fun _ => ?_
          simp only [Check.settle_readAccount, mapError_found _ foundSource,
            mapError_found _ foundTarget, ok_bind, Check.settle_emit, Option.some.injEq, forall_eq']
          refine .ensure_bind decide_eq_true_iff _ fun sufficient => ?_
          obtain ⟨debited, debit, -⟩ := Amount.exists_sub?_of_le positive sufficient
          rw [← Amount.exists_add?_iff positive]
          cases credit : target.balance.add? action.amount with
          | none =>
              simp only [debit]
              exact .broken (by simp) []
          | some credited =>
              have exact := (Amount.add?_eq_some_iff.mp credit).symm
              simp only [planned, debit, credit, Option.getD_some]
              exact .met ⟨credited, rfl, exact⟩ .accepted

variable {action context store} {plan : Plan}

theorem settle_validate_iff_acceptable :
    ((Action.transferBalance action).validate context).settle store = .ok plan ↔
      ∃ source target debited credited, action.Acceptable context store source target ∧
        debited.val = source.balance.val - action.amount.val ∧
        credited.val = target.balance.val + action.amount.val ∧
        plan = .transferBalance { source with balance := debited }
          { target with balance := credited } := by
  rw [Action.settle_validate_eq_ok_iff, Action.plan, settle_plan_eq_ok_iff]
  constructor
  · rintro ⟨authorized, source, target, debited, credited, foundSource, foundTarget, positive,
      different, sufficient, debit, credit, rfl⟩
    have positive : 0 < action.amount.val := decide_eq_true_iff.mp positive
    have debited_val := (Amount.sub?_eq_some_iff.mp debit).symm
    have credited_val := (Amount.add?_eq_some_iff.mp credit).symm
    have bounded := (Amount.exists_add?_iff positive).mp ⟨credited, credit, credited_val⟩
    exact ⟨source, target, debited, credited, ⟨⟨authorized, foundSource, foundTarget, positive,
      different, sufficient⟩, bounded⟩, debited_val, credited_val, rfl⟩
  · rintro ⟨source, target, debited, credited, acceptable, debited_val, credited_val, rfl⟩
    exact ⟨acceptable.authorized, source, target, debited, credited, acceptable.source_stored,
      acceptable.target_stored, decide_eq_true_iff.mpr acceptable.positive, acceptable.different,
      acceptable.sufficient, Amount.sub?_eq_some_iff.mpr debited_val.symm,
      Amount.add?_eq_some_iff.mpr credited_val.symm, rfl⟩

/-- What is acceptable can be planned: both new balances are in range. -/
theorem Acceptable.settles {source target : Account}
    (acceptable : action.Acceptable context store source target) :
    ∃ plan, ((Action.transferBalance action).validate context).settle store = .ok plan := by
  obtain ⟨debited, -, debited_val⟩ :=
    Amount.exists_sub?_of_le acceptable.positive acceptable.sufficient
  obtain ⟨credited, -, credited_val⟩ :=
    (Amount.exists_add?_iff acceptable.positive).mpr acceptable.in_range
  exact ⟨_, settle_validate_iff_acceptable.mpr
    ⟨source, target, debited, credited, acceptable, debited_val, credited_val, rfl⟩⟩

theorem forall_coverage_iff :
    (∀ requirement ∈ action.coverage context store, requirement.condition) ↔
      ∃ source target, action.Covered context store source target := by
  simp only [coverage, List.forall_mem_cons]
  constructor
  · rintro ⟨authorized, knowsSource, knowsTarget, positive, different, sufficient, -⟩
    obtain ⟨source, foundSource⟩ := Table.contains_iff.mp knowsSource
    obtain ⟨target, foundTarget⟩ := Table.contains_iff.mp knowsTarget
    exact ⟨source, target, authorized, foundSource, foundTarget, positive, different,
      sufficient source foundSource⟩
  · rintro ⟨source, target, authorized, foundSource, foundTarget, positive, different, sufficient⟩
    refine ⟨authorized, Table.contains_of_get? foundSource, Table.contains_of_get? foundTarget,
      positive, different, ?_, List.forall_mem_nil _⟩
    intro other found
    cases Option.some.inj (foundSource.symm.trans found)
    exact sufficient

/-- The range is the reason just if everything else is in order and the credit leaves it. -/
theorem exists_isFirstBroken_balanceOverflow_iff :
    (∃ broken : Requirement, broken.IsFirstBroken (action.requirements context store) ∧
        broken.reason = .balanceOverflow) ↔
      ∃ source target, action.Covered context store source target ∧
        9223372036854775807 < target.balance.val + action.amount.val := by
  have own : ∀ other ∈ action.coverage context store ++ [], other.reason ≠ .balanceOverflow := by
    simp [coverage]
  rw [requirements, Requirement.exists_isFirstBroken_iff own, forall_coverage_iff]
  constructor
  · rintro ⟨⟨source, target, covered⟩, leaves⟩
    refine ⟨source, target, covered, ?_⟩
    simpa only [covered.target_stored, Option.some.injEq, forall_eq', Int.not_le] using leaves
  · rintro ⟨source, target, covered, leaves⟩
    refine ⟨⟨source, target, covered⟩, ?_⟩
    simpa only [covered.target_stored, Option.some.injEq, forall_eq', Int.not_le] using leaves

variable (action context store)

/-- A dry run accepts a transfer that is in order and nothing else, and is to change the two
balances by exactly the amount. Anything else it rejects for the first requirement that does not
hold. The debit of a balance that covers the amount is in range, so the range is the reason just if
the credit leaves it. -/
theorem dryRun_moves_iff :
    ((∃ plan, (Action.transferBalance action).dryRun context store = .ok plan) ↔
        ∃ source target, action.Acceptable context store source target) ∧
      (∀ plan, (Action.transferBalance action).dryRun context store = .ok plan ↔
        ∃ source target debited credited, action.Acceptable context store source target ∧
          debited.val = source.balance.val - action.amount.val ∧
          credited.val = target.balance.val + action.amount.val ∧
          plan = .transferBalance { source with balance := debited }
            { target with balance := credited }) ∧
      (∀ failure, (Action.transferBalance action).dryRun context store = .error failure ↔
        ∃ broken : Requirement, broken.IsFirstBroken (action.requirements context store) ∧
          failure = .rejected ⟨broken.reason, none⟩) ∧
      (∀ source target, action.Covered context store source target →
        ∃ debited, source.balance.sub? action.amount = some debited) ∧
      ((Action.transferBalance action).dryRun context store =
          .error (.rejected ⟨.balanceOverflow, none⟩) ↔
        ∃ source target, action.Covered context store source target ∧
          9223372036854775807 < target.balance.val + action.amount.val) := by
  unfold Action.dryRun
  rw [Check.result_run_noFaults]
  obtain ⟨planned, judges⟩ := action.judges_validate context store
  refine ⟨?accepts, fun plan => settle_validate_iff_acceptable, fun failure => judges.eq_error_iff,
    ?debits, ?overflows⟩
  case accepts =>
    constructor
    · rintro ⟨plan, settled⟩
      obtain ⟨source, target, -, -, acceptable, -⟩ := settle_validate_iff_acceptable.mp settled
      exact ⟨source, target, acceptable⟩
    · rintro ⟨source, target, acceptable⟩
      exact acceptable.settles
  case debits =>
    intro source target covered
    obtain ⟨debited, debit, -⟩ := Amount.exists_sub?_of_le covered.positive covered.sufficient
    exact ⟨debited, debit⟩
  case overflows =>
    rw [judges.eq_error_iff, ← exists_isFirstBroken_balanceOverflow_iff]
    refine exists_congr fun broken => and_congr_right fun _ => ?_
    simp [Failure.ofReason, eq_comm]

end TransferBalance

end TokenLedger
