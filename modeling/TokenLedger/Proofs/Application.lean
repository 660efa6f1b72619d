import TokenLedger.Proofs.Commit
import TokenLedger.Proofs.Plans

/-!
What applying an action comes to.

An action is refused and writes nothing, or it settles to a plan whose writes are made up to
the first that fails (`Action.apply_cases`). The writes of the plan are those that are due for the
action (`Action.sequence_of_settle`). The store takes every plan that was settled on it
(`Action.acceptsAll_of_settle`), so without faults such a plan is carried out whole.
-/

set_option autoImplicit false

namespace TokenLedger

variable {store : Store} {context : Context} {action : Action} {plan : Plan}

theorem Store.acceptsAll_addGroup {groups : List Group}
    (absent : ∀ group ∈ groups, store.groups.contains group.id = false)
    (distinct : (groups.map Group.id).Nodup) : store.AcceptsAll (groups.map Write.addGroup) := by
  induction groups generalizing store with
  | nil => trivial
  | cons group rest inductionHypothesis =>
      have ⟨first, others⟩ := List.forall_mem_cons.mp absent
      have ⟨once, distinct⟩ := List.nodup_cons.mp distinct
      refine ⟨first, inductionHypothesis ?_ distinct⟩
      intro other member
      have different : group.id ≠ other.id := fun same =>
        once (List.mem_map.mpr ⟨other, member, same.symm⟩)
      simp [Store.written, different, others other member]

theorem Table.contains_of_get? {α κ : Type} [Keyed α κ] [LT κ] [DecidableEq κ] {table : Table α}
    {k : κ} {record : α} (found : table.get? k = some record) : table.contains k = true :=
  Table.contains_iff.mpr ⟨record, found⟩

namespace Action

theorem settle_validate_eq_ok_iff :
    (action.validate context).settle store = .ok plan ↔
      context.authorized action.scope = true ∧ (action.plan context).settle store = .ok plan := by
  unfold validate Context.require
  cases authorized : context.authorized action.scope <;> simp [bind_eq_ok_iff]

/-- The writes of a commit in their order. A domain comes before the groups defined along with it,
and the account that pays before the one that is paid. Everything else is one write. -/
def Sequence (context : Context) (store : Store) (writes : List Write) : Action → Prop
  | .newDomain action =>
      writes = .addDomain (action.record context.time) :: action.groups.map .addGroup
  | .updateDomain action => ∃ stored, store.domains.get? action.name = some stored ∧
      writes = .updateDomain (action.amended stored) :: action.groups.map .addGroup
  | .issueTokens action => writes = [.issueTokens action.tokens]
  | .transferToken action => writes = [.transferToken action.domain action.name action.owner]
  | .updateGroup action => ∃ stored, store.groups.get? action.id = some stored ∧
      writes = [.updateGroup { stored with threshold := action.threshold, keys := action.keys }]
  | .newAccount action => writes = [.addAccount (action.record context.time context.config)]
  | .updateOwner action => ∃ stored, store.accounts.get? action.name = some stored ∧
      writes = [.updateAccount { stored with owner := action.owner }]
  | .transferBalance action => ∃ source target debited credited,
      action.Moves store source target debited credited ∧
        writes = [.updateAccount debited, .updateAccount credited]

theorem sequence_of_settle (settled : (action.plan context).settle store = .ok plan) :
    action.Sequence context store plan.writes := by
  cases action with
  | newDomain action =>
      obtain ⟨-, -, -, -, -, -, rfl⟩ := NewDomain.settle_plan_eq_ok_iff.mp settled
      rfl
  | updateDomain action =>
      obtain ⟨stored, found, -, -, -, -, rfl⟩ := UpdateDomain.settle_plan_eq_ok_iff.mp settled
      exact ⟨stored, found, rfl⟩
  | issueTokens action =>
      obtain ⟨-, -, -, -, rfl⟩ := IssueTokens.settle_plan_eq_ok_iff.mp settled
      rfl
  | transferToken action =>
      obtain ⟨-, rfl⟩ := TransferToken.settle_plan_eq_ok_iff.mp settled
      rfl
  | updateGroup action =>
      obtain ⟨stored, found, -, -, rfl⟩ := UpdateGroup.settle_plan_eq_ok_iff.mp settled
      exact ⟨stored, found, rfl⟩
  | newAccount action =>
      obtain ⟨-, -, -, rfl⟩ := NewAccount.settle_plan_eq_ok_iff.mp settled
      rfl
  | updateOwner action =>
      obtain ⟨stored, found, -, rfl⟩ := UpdateOwner.settle_plan_eq_ok_iff.mp settled
      exact ⟨stored, found, rfl⟩
  | transferBalance action =>
      obtain ⟨source, target, debited, credited, moves, rfl⟩ :=
        TransferBalance.moves_of_settle settled
      exact ⟨source, target, debited, credited, moves, rfl⟩

/-- What was found out about the store before a plan was made suffices for all its writes. -/
theorem acceptsAll_of_settle (settled : (action.plan context).settle store = .ok plan) :
    store.AcceptsAll plan.writes := by
  cases action with
  | newDomain action =>
      obtain ⟨fresh, definitions, -, -, -, absent, rfl⟩ :=
        NewDomain.settle_plan_eq_ok_iff.mp settled
      have ⟨_, distinct⟩ := checkDefinitions_eq_ok_iff.mp definitions
      refine ⟨fresh, Store.acceptsAll_addGroup ?_ (distinct_nil_left.mp distinct)⟩
      exact absent
  | updateDomain action =>
      obtain ⟨stored, found, definitions, -, -, absent, rfl⟩ :=
        UpdateDomain.settle_plan_eq_ok_iff.mp settled
      have ⟨_, distinct⟩ := checkDefinitions_eq_ok_iff.mp definitions
      have same : stored.name = action.name := Table.key_of_get? found
      have known : store.domains.contains stored.name = true := same ▸ Table.contains_of_get? found
      refine ⟨known, Store.acceptsAll_addGroup ?_ (distinct_nil_left.mp distinct)⟩
      exact absent
  | issueTokens action =>
      obtain ⟨-, -, fresh, distinct, rfl⟩ := IssueTokens.settle_plan_eq_ok_iff.mp settled
      refine ⟨⟨?_, ?_⟩, trivial⟩
      · intro token member
        obtain ⟨name, listed, rfl⟩ := List.mem_map.mp member
        exact (fresh name listed).2
      · rw [IssueTokens.tokens, List.map_map]
        refine List.Pairwise.map _ ?_ distinct
        intro name other different same
        exact different (congrArg TokenKey.name same)
  | transferToken action =>
      obtain ⟨issued, rfl⟩ := TransferToken.settle_plan_eq_ok_iff.mp settled
      exact ⟨issued, trivial⟩
  | updateGroup action =>
      obtain ⟨stored, found, -, -, rfl⟩ := UpdateGroup.settle_plan_eq_ok_iff.mp settled
      have same : stored.id = action.id := Table.key_of_get? found
      exact ⟨same ▸ Table.contains_of_get? found, trivial⟩
  | newAccount action =>
      obtain ⟨-, fresh, -, rfl⟩ := NewAccount.settle_plan_eq_ok_iff.mp settled
      exact ⟨fresh, trivial⟩
  | updateOwner action =>
      obtain ⟨stored, found, -, rfl⟩ := UpdateOwner.settle_plan_eq_ok_iff.mp settled
      have same : stored.name = action.name := Table.key_of_get? found
      exact ⟨same ▸ Table.contains_of_get? found, trivial⟩
  | transferBalance action =>
      obtain ⟨source, target, debited, credited, moves, rfl⟩ :=
        TransferBalance.moves_of_settle settled
      have sourceStored := Table.contains_of_get? moves.source_stored
      have targetStored := Table.contains_of_get? moves.target_stored
      refine ⟨?_, ?_, trivial⟩
      · simp [Store.Accepts, moves.debited_name, sourceStored]
      · simp [Store.Accepts, Store.written, moves.credited_name, targetStored]

end Action

section Applying

variable {φ : Type} [FaultSource φ]

theorem Check.filterMap_write?_calls {α : Type} (store : Store) (check : Check α) (faults : φ) :
    (check.run store faults).calls.filterMap Call.write? = [] := by
  induction check generalizing faults with
  | done value => rfl
  | fail failure => rfl
  | note event next inductionHypothesis => exact inductionHypothesis faults
  | ask query next inductionHypothesis =>
      obtain ⟨left, ⟨answer, -, -, ran⟩ | ⟨error, -, ran⟩⟩ :=
        run_ask_cases store query next faults
      · rw [ran]
        exact inductionHypothesis answer left
      · rw [ran]
        rfl

/-- The action was turned down before anything was sent to be written. -/
structure Outcome.Refuses (outcome : Outcome φ) (store : Store) : Prop where
  result : ∃ failure, outcome.result = .error failure
  store : outcome.store = store
  attempts : outcome.attempts = []

/-- An action is refused, or its plan is carried out up to the first write that fails. -/
theorem Action.apply_cases (context : Context) (action : Action) (store : Store) (faults : φ) :
    (action.apply context store faults).Refuses store ∨
      ∃ plan done rest, (action.validate context).settle store = .ok plan ∧
        plan.writes = done ++ rest ∧ (action.apply context store faults).Makes store done rest := by
  have unwritten := (action.validate context).filterMap_write?_calls store faults
  unfold apply
  cases checked : ((action.validate context).run store faults).result with
  | error failure =>
      simp only [checked]
      exact .inl ⟨⟨_, rfl⟩, rfl, unwritten⟩
  | ok plan =>
      simp only [checked]
      right
      obtain ⟨done, rest, split, makes, -⟩ :=
        store.commit_makes plan.writes ((action.validate context).run store faults).faults
      refine ⟨plan, done, rest, Check.settle_eq_ok_of_run checked, split, makes.accepted,
        makes.store, ?_, ?_, ?_⟩
      · have attempts := makes.attempts
        simp only [Outcome.attempts] at attempts ⊢
        rw [List.filterMap_append, unwritten, attempts, List.nil_append]
      · intro finished
        rw [makes.completes finished]
        rfl
      · intro unfinished
        obtain ⟨error, failed⟩ := makes.breaks unfinished
        refine ⟨error, ?_⟩
        rw [failed]
        rfl

/-- Whatever the faults of the store, an action that goes through has carried out its plan. -/
theorem Action.planned_of_apply {context : Context} {action : Action} {store : Store} {faults : φ}
    (finished : (action.apply context store faults).result = .ok ()) :
    ∃ plan, (action.validate context).settle store = .ok plan ∧
      (action.apply context store faults).store = store.rewritten plan.writes := by
  rcases action.apply_cases context store faults with
    refuses | ⟨plan, done, rest, settled, split, makes⟩
  · obtain ⟨failure, refused⟩ := refuses.result
    exact nomatch finished.symm.trans refused
  · cases rest with
    | nil =>
        refine ⟨plan, settled, ?_⟩
        rw [makes.store, split, List.append_nil]
    | cons write others =>
        obtain ⟨error, failed⟩ := makes.breaks (List.cons_ne_nil write others)
        exact nomatch finished.symm.trans failed

/-- Without faults, an action in order is carried out whole and another changes nothing. -/
theorem Action.apply_noFaults_cases (context : Context) (action : Action) (store : Store) :
    (∃ failure, (action.validate context).settle store = .error failure ∧
      (action.apply context store NoFaults.mk).result =
        .error (failure.submittedAs action.submission) ∧
      (action.apply context store NoFaults.mk).store = store) ∨
    ∃ plan, (action.validate context).settle store = .ok plan ∧
      (action.apply context store NoFaults.mk).result = .ok () ∧
      (action.apply context store NoFaults.mk).store = store.rewritten plan.writes := by
  have checked := Check.result_run_noFaults store (action.validate context)
  unfold apply
  cases settled : (action.validate context).settle store with
  | error failure =>
      rw [settled] at checked
      exact .inl ⟨failure, rfl, by simp only [checked], by simp only [checked]⟩
  | ok plan =>
      rw [settled] at checked
      have accepted := acceptsAll_of_settle (settle_validate_eq_ok_iff.mp settled).2
      have ⟨result, left⟩ := store.commit_noFaults accepted
      simp only [checked]
      refine .inr ⟨plan, rfl, ?_, left⟩
      rw [result]
      rfl

/-- Without faults, an action that fails its check changes nothing. -/
theorem Action.apply_of_refused {context : Context} {action : Action} {store : Store}
    {failure : Failure} (refused : (action.validate context).settle store = .error failure) :
    (action.apply context store NoFaults.mk).result =
        .error (failure.submittedAs action.submission) ∧
      (action.apply context store NoFaults.mk).store = store := by
  rcases action.apply_noFaults_cases context store with
    ⟨other, failed, result, same⟩ | ⟨plan, planned, -, -⟩
  · cases Except.error.inj (refused.symm.trans failed)
    exact ⟨result, same⟩
  · exact nomatch refused.symm.trans planned

/-- Without faults, an action whose check comes to a plan is carried out. -/
theorem Action.apply_of_planned {context : Context} {action : Action} {store : Store} {plan : Plan}
    (planned : (action.validate context).settle store = .ok plan) :
    (action.apply context store NoFaults.mk).result = .ok () ∧
      (action.apply context store NoFaults.mk).store = store.rewritten plan.writes := by
  rcases action.apply_noFaults_cases context store with
    ⟨failure, failed, -, -⟩ | ⟨other, settled, finished, left⟩
  · exact nomatch planned.symm.trans failed
  · cases Except.ok.inj (planned.symm.trans settled)
    exact ⟨finished, left⟩

/-- An action that is authorized and has a plan is carried out. -/
theorem Action.apply_of_settle {context : Context} {action : Action} {store : Store} {plan : Plan}
    (authorized : context.authorized action.scope = true)
    (settled : (action.plan context).settle store = .ok plan) :
    (action.apply context store NoFaults.mk).result = .ok () ∧
      (action.apply context store NoFaults.mk).store = store.rewritten plan.writes :=
  apply_of_planned (settle_validate_eq_ok_iff.mpr ⟨authorized, settled⟩)

end Applying

end TokenLedger
