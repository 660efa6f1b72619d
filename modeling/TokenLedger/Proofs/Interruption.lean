import TokenLedger.Proofs.Application

/-!
Where a failing call leaves an action.

A failing call is the last one that an action makes, and its error is the result of the action.
Checking only asks, so a failure there leaves the store as it was. A failure among the writes leaves
those before it made (`Action.apply_breaksOff`).
-/

set_option autoImplicit false

namespace TokenLedger

section Calls

variable {φ : Type} [FaultSource φ]

theorem Check.result_of_failing_call {α : Type} (check : Check α) (store : Store) (faults : φ)
    {position : Nat} {error : StoreError}
    (fails : (store.failures (check.run store faults).calls faults)[position]? =
      some (some error)) :
    (check.run store faults).calls.length = position + 1 ∧
      (check.run store faults).result = .error (.store error) := by
  induction check generalizing faults position with
  | done value => simp [run, Store.failures] at fails
  | fail failure => simp [run, Store.failures] at fails
  | note event next inductionHypothesis => exact inductionHypothesis faults fails
  | ask query next inductionHypothesis =>
      obtain ⟨left, ⟨answer, -, sent, ran⟩ | ⟨struck, sent, ran⟩⟩ :=
        run_ask_cases store query next faults
      · simp only [ran, Store.failures_cons_of_ok sent] at fails
        cases position with
        | zero => simp at fails
        | succ position =>
            obtain ⟨last, result⟩ := inductionHypothesis answer left (by simpa using fails)
            simp only [ran]
            exact ⟨congrArg (· + 1) last, result⟩
      · simp only [ran, Store.failures_cons_of_error sent, Store.failures] at fails
        obtain ⟨rfl, rfl⟩ : position = 0 ∧ struck = error := by
          simpa [List.getElem?_singleton] using fails
        simp [ran]

/-- A commit breaks off at the write that fails, with the writes before it made. -/
theorem Store.commit_of_failing_call (store : Store) (writes : List Write) (faults : φ)
    {made : Nat} {error : StoreError}
    (fails : (store.failures (store.commit writes faults).calls faults)[made]? =
      some (some error)) :
    made < writes.length ∧
      (store.commit writes faults).calls = (writes.take (made + 1)).map Call.perform ∧
      (store.commit writes faults).result = .error (.store error) ∧
      (writes.take made).foldlM Store.perform store = .ok (store.commit writes faults).store := by
  induction writes generalizing store faults made with
  | nil => simp [commit, failures] at fails
  | cons write rest inductionHypothesis =>
      unfold commit at fails ⊢
      obtain ⟨left, ⟨after, performed, sent, first⟩ | ⟨struck, sent, first⟩⟩ :=
        store.send_perform_cases write faults
      · simp only [first, List.cons_append, List.nil_append, failures_cons_of_ok sent] at fails ⊢
        cases made with
        | zero => simp at fails
        | succ made =>
            obtain ⟨less, calls, result, others⟩ :=
              inductionHypothesis after left (by simpa using fails)
            refine ⟨by simpa using less, by simp [calls], result, ?_⟩
            rw [List.take_succ_cons, List.foldlM_cons, performed, ok_bind, others]
      · simp only [first, failures_cons_of_error sent, failures] at fails ⊢
        obtain ⟨rfl, rfl⟩ : made = 0 ∧ struck = error := by
          simpa [List.getElem?_singleton] using fails
        exact ⟨Nat.succ_pos _, rfl, rfl, rfl⟩

end Calls

namespace Action

variable {context : Context} {store : Store} {action : Action}

/-- Only three kinds of actions write more than once. -/
theorem Sequence.eq_singleton {writes : List Write}
    (sequence : action.Sequence context store writes)
    (kind : action.kind ∉ [.newDomain, .updateDomain, .transferBalance]) :
    ∃ write, writes = [write] := by
  cases action with
  | newDomain | updateDomain | transferBalance => simp [Action.kind] at kind
  | issueTokens | transferToken | newAccount => exact ⟨_, sequence⟩
  | updateGroup | updateOwner =>
      obtain ⟨stored, -, single⟩ := sequence
      exact ⟨_, single⟩

end Action

/-- An action came to its end with the call in this position, which failed. The report is on what it
had checked by then. -/
structure Outcome.BreaksOff {φ : Type} (outcome : Outcome φ) (report : Check.Report φ Plan)
    (context : Context) (action : Action) (store : Store) (position : Nat) (error : StoreError) :
    Prop where
  last : outcome.calls.length = position + 1
  result : outcome.result = .error (.store error)
  /-- While the action was checked nothing was written. -/
  checking : position < report.calls.length → outcome.store = store
  /-- The writes before the one that failed were made, and no others. -/
  committing : ∀ made, position = report.calls.length + made →
    ∃ plan, report.result = .ok plan ∧ action.Sequence context store plan.writes ∧
      made < plan.writes.length ∧
      outcome.calls = report.calls ++ (plan.writes.take (made + 1)).map Call.perform ∧
      (plan.writes.take made).foldlM Store.perform store = .ok outcome.store
  /-- What writes once writes all or nothing. -/
  atomic : action.kind ∉ [.newDomain, .updateDomain, .transferBalance] → outcome.store = store

/-- Whatever call of an action fails, the action breaks off there and reports the error as it is. -/
theorem Action.apply_breaksOff {φ : Type} [FaultSource φ] (context : Context) (action : Action)
    (store : Store) (faults : φ) {position : Nat} {error : StoreError}
    (fails : (store.failures (action.apply context store faults).calls faults)[position]? =
      some (some error)) :
    (action.apply context store faults).BreaksOff ((action.validate context).run store faults)
      context action store position error := by
  have answered := (action.validate context).failures_calls_append store faults
  unfold apply at fails ⊢
  cases checked : ((action.validate context).run store faults).result with
  | error failure =>
      simp only [checked] at fails ⊢
      obtain ⟨last, result⟩ := (action.validate context).result_of_failing_call store faults fails
      cases checked.symm.trans result
      refine ⟨last, rfl, fun _ => rfl, ?_, fun _ => rfl⟩
      intro made later
      omega
  | ok plan =>
      simp only [checked] at fails ⊢
      rw [answered] at fails
      have settled := (settle_validate_eq_ok_iff.mp (Check.settle_eq_ok_of_run checked)).2
      have sequence := sequence_of_settle settled
      by_cases early : position < ((action.validate context).run store faults).calls.length
      · -- A check that comes to a plan has had all its calls answered.
        rw [List.getElem?_append_left (by simpa using early)] at fails
        have failed := ((action.validate context).result_of_failing_call store faults fails).2
        exact nomatch checked.symm.trans failed
      · obtain ⟨made, rfl⟩ := Nat.exists_eq_add_of_le (Nat.not_lt.mp early)
        rw [List.getElem?_append_right (by simp)] at fails
        simp only [Store.length_failures, Nat.add_sub_cancel_left] at fails
        obtain ⟨less, calls, result, others⟩ := store.commit_of_failing_call plan.writes _ fails
        constructor
        case last =>
          rw [List.length_append, calls, List.length_map, List.length_take]
          omega
        case result => simp only [result]; rfl
        case checking => exact fun checking => absurd checking early
        case committing =>
          intro again same
          cases Nat.add_left_cancel same
          exact ⟨plan, checked, sequence, less, by simp only [calls], others⟩
        case atomic =>
          intro kind
          obtain ⟨write, single⟩ := sequence.eq_singleton kind
          have first : made = 0 := by simpa [single] using less
          rw [first] at others
          exact (Except.ok.inj others).symm

theorem Action.apply_breaksOff_second_write :
    let noon : Instant := ⟨⟨2018, 5, 1, by decide⟩, 12, 0, 0, 0⟩
    let context : Context := ⟨fun _ => true, noon, .standard⟩
    let account (name : String) : Account := ⟨⟨name⟩, ⟨"evt"⟩, noon, { val := 100 }, .zero, []⟩
    let store := Store.empty.rewritten [.addAccount (account "alice"), .addAccount (account "bob")]
    let action : Action := .transferBalance ⟨⟨"alice"⟩, ⟨"bob"⟩, { val := 40 }⟩
    let faults : List Fault := [⟨.updateAccount, 1, .storage "lost"⟩]
    (store.failures (action.apply context store faults).calls faults)[5]? =
        some (some (.storage "lost")) ∧
      (action.apply context store faults).BreaksOff ((action.validate context).run store faults)
        context action store 5 (.storage "lost") := by
  intro noon context account store action faults
  have fails : (store.failures (action.apply context store faults).calls faults)[5]? =
      some (some (.storage "lost")) := by decide
  exact ⟨fails, action.apply_breaksOff context store faults fails⟩

end TokenLedger
