import Mathlib.Algebra.Ring.Int.Defs
import TokenLedger.Proofs.Footprint
import TokenLedger.Proofs.History

/-!
The supply of balance along a run.

Writing an account changes the supply by the new balance less the one it replaces. Only two
steps do not keep it: opening an account, and a transfer that the store left half made.
-/

set_option autoImplicit false

namespace TokenLedger

section Sums

variable {α κ : Type} [Keyed α κ] [LT κ] [LE κ] [Std.IsLinearOrder κ] [Std.LawfulOrderLT κ]
  [DecidableLT κ] [DecidableEq κ]

/-- Filing a record adds its value and takes away that of the record it replaces. -/
theorem Table.sum_map_insert (table : Table α) (record : α) (value : α → Int) :
    ((table.insert record).toList.map value).sum =
      (table.toList.map value).sum + value record -
        ((table.get? (Keyed.key record)).map value).getD 0 := by
  rcases table with ⟨rows, ascending⟩
  simp only [insert, get?]
  induction rows with
  | nil => simp [fileIn]
  | cons other rest inductionHypothesis =>
      obtain ⟨first, others⟩ := List.pairwise_cons.mp ascending
      unfold fileIn
      split
      case isTrue before =>
        have absent : (other :: rest).find? (fun a => Keyed.key a = Keyed.key record) = none := by
          refine List.find?_eq_none.mpr ?_
          intro a member same
          have same : Keyed.key a = Keyed.key record := by simpa using same
          rcases List.mem_cons.mp member with rfl | member
          · exact Std.lt_irrefl (same ▸ before)
          · exact Std.lt_irrefl (Std.lt_trans before (same ▸ first a member))
        rw [absent]
        simp [Int.add_comm]
      case isFalse notBefore =>
        split
        case isTrue after =>
          have different : Keyed.key other ≠ Keyed.key record := fun same =>
            Std.lt_irrefl (same ▸ after)
          have later := inductionHypothesis others
          simp only [List.map_cons, List.sum_cons, List.find?_cons, different, decide_false]
            at later ⊢
          omega
        case isFalse notAfter =>
          have same : Keyed.key other = Keyed.key record :=
            Std.le_antisymm (Std.not_lt.mp notBefore) (Std.not_lt.mp notAfter)
          simp [same]
          omega

end Sums

namespace Store

/-- The exact sum of all balances. -/
def supply (store : Store) : Int :=
  (store.accounts.toList.map fun account => account.balance.val).sum

variable {store : Store} {account stored : Account}

theorem supply_addAccount (fresh : store.accounts.contains account.name = false) :
    (store.written (.addAccount account)).supply = store.supply + account.balance.val := by
  have missing : store.accounts.get? account.name = none := Table.contains_eq_false_iff.mp fresh
  simp [supply, written, Table.sum_map_insert, missing]

theorem supply_updateAccount (found : store.accounts.get? account.name = some stored) :
    (store.written (.updateAccount account)).supply =
      store.supply + account.balance.val - stored.balance.val := by
  simp [supply, written, Table.sum_map_insert, found]

end Store

section Writing

variable {store : Store} {done rest : List Write}

theorem UpdateOwner.supply_rewritten {action : UpdateOwner} {owned : Account}
    (found : store.accounts.get? action.name = some owned)
    (split : [Write.updateAccount { owned with owner := action.owner }] = done ++ rest) :
    (store.rewritten done).supply = store.supply := by
  rcases List.singleton_eq_append_iff.mp split with ⟨rfl, -⟩ | ⟨rfl, -⟩
  · rfl
  · have same : owned.name = action.name := Table.key_of_get? found
    rw [Store.rewritten_cons, Store.rewritten_nil, Store.supply_updateAccount (same ▸ found)]
    exact Int.add_sub_cancel _ _

/-- The account is opened with all it starts with, or not at all. -/
theorem NewAccount.supply_rewritten {opened : Account}
    (fresh : store.accounts.contains opened.name = false)
    (split : [Write.addAccount opened] = done ++ rest) :
    (rest = [] ∧ (store.rewritten done).supply = store.supply + opened.balance.val) ∨
      (rest ≠ [] ∧ (store.rewritten done).supply = store.supply) := by
  rcases List.singleton_eq_append_iff.mp split with ⟨rfl, rfl⟩ | ⟨rfl, rfl⟩
  · exact .inr ⟨List.cons_ne_nil _ _, rfl⟩
  · exact .inl ⟨rfl, Store.supply_addAccount fresh⟩

/-- What the source loses the target gains, unless the transfer ends between the two writes. -/
theorem TransferBalance.Moves.supply_rewritten {action : TransferBalance}
    {source target debited credited : Account}
    (moves : action.Moves store source target debited credited)
    (split : [Write.updateAccount debited, .updateAccount credited] = done ++ rest) :
    (rest = [.updateAccount credited] ∧
        (store.rewritten done).supply = store.supply - action.amount.val) ∨
      ((rest = [] ∨ done = []) ∧ (store.rewritten done).supply = store.supply) := by
  have lost := moves.debited_val
  have gained := moves.credited_val
  have debit : (store.written (.updateAccount debited)).supply =
      store.supply - action.amount.val := by
    have found : store.accounts.get? debited.name = some source :=
      moves.debited_name ▸ moves.source_stored
    rw [Store.supply_updateAccount found]
    omega
  rcases List.cons_eq_append_iff.mp split with ⟨rfl, -⟩ | ⟨others, rfl, later⟩
  · exact .inr ⟨.inr rfl, rfl⟩
  rcases List.singleton_eq_append_iff.mp later with ⟨rfl, rfl⟩ | ⟨rfl, rfl⟩
  · exact .inl ⟨rfl, debit⟩
  · -- The target is read before the first write, which is about another account.
    have found : (store.written (.updateAccount debited)).accounts.get? credited.name =
        some target := by
      simp [Store.written, moves.debited_name, moves.credited_name, moves.different,
        moves.target_stored]
    refine .inr ⟨.inl rfl, ?_⟩
    rw [Store.rewritten_cons, Store.rewritten_cons, Store.rewritten_nil,
      Store.supply_updateAccount found, debit]
    omega

end Writing

namespace Passage

variable {φ : Type}

/-- An account was opened. -/
def Opens (passage : Passage φ) : Prop :=
  (∃ opening, passage.step.action = .newAccount opening) ∧ passage.outcome.result = .ok ()

/-- The first account of a transfer was written and writing the second one failed. -/
def Tears (passage : Passage φ) (transfer : TransferBalance) : Prop :=
  passage.step.action = .transferBalance transfer ∧
    ∃ debited credited error,
      passage.outcome.attempts = [.updateAccount debited, .updateAccount credited] ∧
        passage.outcome.result = .error (.store error)

/-- What the step means for the supply. -/
structure Accounted (passage : Passage φ) : Prop where
  opened : passage.Opens →
    0 ≤ passage.step.context.config.initialBalance.val ∧
      passage.outcome.store.supply =
        passage.before.supply + passage.step.context.config.initialBalance.val
  torn : ∀ transfer, passage.Tears transfer →
    passage.outcome.store.supply = passage.before.supply - transfer.amount.val
  kept : ¬passage.Opens → (∀ transfer, ¬passage.Tears transfer) →
    passage.outcome.store.supply = passage.before.supply

variable {passage : Passage φ}

theorem not_opens_of_ne (other : ∀ opening, passage.step.action ≠ .newAccount opening) :
    ¬passage.Opens := by
  rintro ⟨⟨opening, same⟩, -⟩
  exact other opening same

theorem not_tears_of_ne (other : ∀ transfer, passage.step.action ≠ .transferBalance transfer)
    (transfer : TransferBalance) : ¬passage.Tears transfer := by
  rintro ⟨same, -⟩
  exact other transfer same

theorem accounted_of_kept (kept : passage.outcome.store.supply = passage.before.supply)
    (opens : ¬passage.Opens) (tears : ∀ transfer, ¬passage.Tears transfer) :
    passage.Accounted where
  opened opened := absurd opened opens
  torn transfer torn := absurd torn (tears transfer)
  kept _ _ := kept

theorem Accounted.opens (accounted : passage.Accounted)
    (changed : passage.outcome.store.supply ≠ passage.before.supply)
    (untorn : ∀ transfer, ¬passage.Tears transfer) : passage.Opens := by
  by_cases opened : passage.Opens
  · exact opened
  · exact absurd (accounted.kept opened untorn) changed

variable [FaultSource φ] {context : Context} {store : Store} {faults : φ} {done rest : List Write}

theorem accounted_newAccount {opening : NewAccount} {opened : Account}
    (fresh : store.accounts.contains opened.name = false)
    (balance : opened.balance = context.config.initialBalance)
    (checked : context.config.check = .ok ()) (split : [Write.addAccount opened] = done ++ rest)
    (makes : (Action.apply context (.newAccount opening) store faults).Makes store done rest) :
    (⟨⟨context, .newAccount opening⟩, store,
      Action.apply context (.newAccount opening) store faults⟩ : Passage φ).Accounted := by
  rcases NewAccount.supply_rewritten fresh split with ⟨finished, gained⟩ | ⟨unfinished, same⟩
  · constructor
    · intro opens
      refine ⟨(Config.check_eq_ok_iff.mp checked).2, ?_⟩
      rw [makes.store, gained, balance]
    · intro transfer tears
      exact absurd tears (not_tears_of_ne (by simp) transfer)
    · intro unopened
      exact absurd ⟨⟨opening, rfl⟩, makes.completes finished⟩ unopened
  · obtain ⟨error, failed⟩ := makes.breaks unfinished
    refine accounted_of_kept ?_ ?_ (not_tears_of_ne (by simp))
    · rw [makes.store, same]
    · rintro ⟨-, finished⟩
      exact nomatch failed.symm.trans finished

theorem accounted_transferBalance {transfer : TransferBalance}
    {source target debited credited : Account}
    (moves : transfer.Moves store source target debited credited)
    (split : [Write.updateAccount debited, .updateAccount credited] = done ++ rest)
    (makes :
      (Action.apply context (.transferBalance transfer) store faults).Makes store done rest) :
    (⟨⟨context, .transferBalance transfer⟩, store,
      Action.apply context (.transferBalance transfer) store faults⟩ : Passage φ).Accounted := by
  rcases moves.supply_rewritten split with ⟨rfl, lost⟩ | ⟨whole, same⟩
  · obtain ⟨error, failed⟩ := makes.breaks (List.cons_ne_nil _ _)
    have attempts := makes.attempts
    constructor
    · intro opens
      exact absurd opens (not_opens_of_ne (by simp))
    · rintro again ⟨same, -⟩
      cases same
      rw [makes.store, lost]
    · intro _ untorn
      refine absurd ⟨rfl, debited, credited, error, ?_, failed⟩ (untorn transfer)
      rw [attempts, split]
      rfl
  · refine accounted_of_kept ?_ (not_opens_of_ne (by simp)) ?_
    · rw [makes.store, same]
    · rintro again ⟨-, first, second, error, attempts, failed⟩
      rcases whole with rfl | rfl
      · exact nomatch failed.symm.trans (makes.completes rfl)
      · -- The first write failed, so it was the only one to be attempted.
        have one := makes.attempts.symm.trans attempts
        have both : rest = [Write.updateAccount debited, .updateAccount credited] := split.symm
        simp [both] at one

theorem accounted (step : Step) (store : Store) (faults : φ) :
    (⟨step, store, step.action.apply step.context store faults⟩ : Passage φ).Accounted := by
  rcases step with ⟨context, action⟩
  rcases action.apply_cases context store faults with
    refuses | ⟨plan, done, rest, settled, split, makes⟩
  · obtain ⟨failure, refused⟩ := refuses.result
    refine accounted_of_kept (congrArg Store.supply refuses.store) ?_ ?_
    · rintro ⟨-, finished⟩
      exact nomatch refused.symm.trans finished
    · rintro transfer ⟨-, debited, credited, -, attempts, -⟩
      exact nomatch refuses.attempts.symm.trans attempts
  have planned := (Action.settle_validate_eq_ok_iff.mp settled).2
  cases action with
  | newAccount opening =>
      obtain ⟨-, fresh, checked, rfl⟩ := NewAccount.settle_plan_eq_ok_iff.mp planned
      exact accounted_newAccount fresh rfl checked split makes
  | transferBalance transfer =>
      obtain ⟨source, target, debited, credited, moves, rfl⟩ :=
        TransferBalance.moves_of_settle planned
      exact accounted_transferBalance moves split makes
  | updateOwner action =>
      obtain ⟨owned, found, -, rfl⟩ := UpdateOwner.settle_plan_eq_ok_iff.mp planned
      refine accounted_of_kept ?_ (not_opens_of_ne (by simp)) (not_tears_of_ne (by simp))
      rw [makes.store, UpdateOwner.supply_rewritten found split]
  | newDomain | updateDomain | issueTokens | transferToken | updateGroup =>
      refine accounted_of_kept ?_ (not_opens_of_ne (by simp)) (not_tears_of_ne (by simp))
      unfold Store.supply
      rw [Action.accounts_apply]
      simp [Action.targets]

end Passage

/-- Along every run the supply changes only where an account is opened or a transfer is torn, and
then by what that says. Without faults it changes only where an account is opened. -/
theorem Store.supply_accounted {φ : Type} [FaultSource φ] (store : Store) (steps : List Step)
    (faults : φ) :
    (∀ passage ∈ store.passages steps faults, passage.Accounted) ∧
      ∀ passage ∈ store.passages steps NoFaults.mk,
        passage.outcome.store.supply ≠ passage.before.supply → passage.Opens := by
  refine ⟨passages_induction Passage.accounted store steps faults, ?_⟩
  refine passages_induction (fun step store faults => ?_) store steps NoFaults.mk
  rcases step with ⟨context, action⟩
  intro changed
  apply (Passage.accounted ⟨context, action⟩ store NoFaults.mk).opens changed
  rintro transfer ⟨-, -, -, error, -, failed⟩
  rcases action.apply_noFaults_cases context store with ⟨-, -, -, same⟩ | ⟨-, -, finished, -⟩
  · exact changed (congrArg Store.supply same)
  · exact nomatch failed.symm.trans finished

end TokenLedger
