import TokenLedger.Proofs.Interruption
import TokenLedger.Proofs.Questions

/-!
The calls that an action makes.

Which functions of the store an action calls, with which keys and in which order, is fixed by the
action alone: first what checking asks, then where its plan is written (`Action.trace`). The store
and its faults decide only how far an action gets.
-/

set_option autoImplicit false

namespace TokenLedger

/-- The function of the store that a call goes to, and the keys of the records it is about. -/
structure Address where
  function : CallKind
  keys : List RecordKey
  deriving DecidableEq, Repr

def Call.address : Call → Address
  | .ask query => ⟨query.kind, [query.key]⟩
  | .perform write => ⟨write.kind, write.keys⟩

namespace Action

/-- Where a plan of the action is written. -/
def changes : Action → List Address
  | .newDomain action =>
      ⟨.addDomain, [.domain action.name]⟩ ::
        action.groups.map fun group => ⟨.addGroup, [.group group.id]⟩
  | .updateDomain action =>
      ⟨.updateDomain, [.domain action.name]⟩ ::
        action.groups.map fun group => ⟨.addGroup, [.group group.id]⟩
  | .issueTokens action =>
      [⟨.issueTokens, action.names.map fun name => .token ⟨action.domain, name⟩⟩]
  | .transferToken action => [⟨.transferToken, [.token ⟨action.domain, action.name⟩]⟩]
  | .updateGroup action => [⟨.updateGroup, [.group action.id]⟩]
  | .newAccount action => [⟨.addAccount, [.account action.name]⟩]
  | .updateOwner action => [⟨.updateAccount, [.account action.name]⟩]
  | .transferBalance action =>
      [⟨.updateAccount, [.account action.source]⟩, ⟨.updateAccount, [.account action.target]⟩]

/-- The calls of an action that is carried out. -/
def trace (action : Action) : List Address :=
  (action.questions.map fun query => (Call.ask query).address) ++ action.changes

end Action

/-- A run asks the questions up to some point, and all of them if it comes to a value. -/
theorem Check.Follows.run {φ α : Type} [FaultSource φ] {check : Check α} {questions : List Query}
    (follows : check.Follows questions) (store : Store) (faults : φ) :
    (check.run store faults).calls <+: questions.map Call.ask ∧
      ∀ value, (check.run store faults).result = .ok value →
        (check.run store faults).calls = questions.map Call.ask := by
  induction check generalizing questions faults with
  | done value =>
      cases follows
      exact ⟨List.nil_prefix, fun _ _ => rfl⟩
  | fail failure => exact ⟨List.nil_prefix, fun _ result => nomatch result⟩
  | note event next inductionHypothesis => exact inductionHypothesis follows faults
  | ask query next inductionHypothesis =>
      obtain ⟨rest, rfl, answered⟩ := follows
      obtain ⟨left, ⟨answer, -, -, ran⟩ | ⟨error, -, ran⟩⟩ :=
        Check.run_ask_cases store query next faults
      · obtain ⟨asked, all⟩ := inductionHypothesis answer (answered answer) left
        simp only [ran, List.map_cons]
        exact ⟨List.cons_prefix_cons.mpr ⟨rfl, asked⟩, fun value result => by rw [all value result]⟩
      · simp only [ran, List.map_cons]
        exact ⟨List.cons_prefix_cons.mpr ⟨rfl, List.nil_prefix⟩, fun _ result => nomatch result⟩

namespace Action

/-- A plan is written where the action says, whatever records it copied. -/
theorem address_writes {context : Context} {action : Action} {store : Store} {plan : Plan}
    (settled : (action.plan context).settle store = .ok plan) :
    plan.writes.map (fun write => (Call.perform write).address) = action.changes := by
  have sequence := sequence_of_settle settled
  have groups (added : List Group) :
      (added.map Write.addGroup).map (fun write => (Call.perform write).address) =
        added.map fun group => ⟨.addGroup, [.group group.id]⟩ := by
    simp [Call.address, Write.kind, Write.keys]
  cases action with
  | newDomain action =>
      rw [sequence, List.map_cons, groups]
      rfl
  | updateDomain action =>
      obtain ⟨stored, found, writes⟩ := sequence
      have same : stored.name = action.name := Table.key_of_get? found
      rw [writes, List.map_cons, groups, changes, ← same]
      rfl
  | issueTokens action =>
      rw [sequence]
      simp [Call.address, Write.kind, Write.keys, changes, IssueTokens.tokens, Token.key]
  | transferToken action =>
      rw [sequence]
      rfl
  | updateGroup action =>
      obtain ⟨stored, found, writes⟩ := sequence
      have same : stored.id = action.id := Table.key_of_get? found
      rw [writes, changes, ← same]
      rfl
  | newAccount action =>
      rw [sequence]
      rfl
  | updateOwner action =>
      obtain ⟨stored, found, writes⟩ := sequence
      have same : stored.name = action.name := Table.key_of_get? found
      rw [writes, changes, ← same]
      rfl
  | transferBalance action =>
      obtain ⟨source, target, debited, credited, moves, writes⟩ := sequence
      rw [writes, changes, ← moves.debited_name, ← moves.credited_name]
      rfl

theorem changes_ne_nil (action : Action) : action.changes ≠ [] := by
  cases action <;> simp [changes]

end Action

section Answers

variable {φ : Type} [FaultSource φ] {store : Store} {calls : List Call} {faults : φ}

/-- All the calls come back, none of them with an error. -/
def Store.AllAnswered (store : Store) (calls : List Call) (faults : φ) : Prop :=
  ∀ failure ∈ store.failures calls faults, failure = none

theorem Store.allAnswered_or_failing (store : Store) (calls : List Call) (faults : φ) :
    store.AllAnswered calls faults ∨ ∃ (position : Nat) (error : StoreError),
      (store.failures calls faults)[position]? = some (some error) := by
  by_cases answered : store.AllAnswered calls faults
  · exact .inl answered
  · simp only [AllAnswered, Classical.not_forall] at answered
    obtain ⟨failure, member, failed⟩ := answered
    obtain ⟨position, there⟩ := List.mem_iff_getElem?.mp member
    obtain ⟨error, rfl⟩ := Option.ne_none_iff_exists'.mp failed
    exact .inr ⟨position, error, there⟩

theorem Store.commit_of_allAnswered (store : Store) (writes : List Write) (faults : φ)
    (answered : store.AllAnswered (store.commit writes faults).calls faults) :
    (store.commit writes faults).result = .ok () := by
  induction writes generalizing store faults with
  | nil => rfl
  | cons write rest inductionHypothesis =>
      unfold commit at answered ⊢
      obtain ⟨left, ⟨after, -, sent, first⟩ | ⟨error, sent, first⟩⟩ :=
        store.send_perform_cases write faults
      · simp only [first, AllAnswered, List.cons_append, List.nil_append, failures_cons_of_ok sent,
          List.forall_mem_cons] at answered ⊢
        exact inductionHypothesis after left answered.2
      · simp [first, AllAnswered, failures_cons_of_error sent] at answered

/-- A commit is made up to some write, and up to the last if it succeeds. -/
theorem Store.commit_calls (store : Store) (writes : List Write) (faults : φ) :
    (store.commit writes faults).calls <+: writes.map Call.perform ∧
      ((store.commit writes faults).result = .ok () →
        (store.commit writes faults).calls = writes.map Call.perform) := by
  obtain ⟨done, rest, split, makes, calls, -⟩ := store.commit_makes writes faults
  rw [calls, split]
  constructor
  · exact List.IsPrefix.map _ ((List.prefix_append_right_inj done).mpr (List.take_prefix 1 rest))
  · intro finished
    by_cases whole : rest = []
    · simp [whole]
    · obtain ⟨error, failed⟩ := makes.breaks whole
      rw [← split] at finished
      cases finished.symm.trans failed

theorem Check.allAnswered_of_ok {α : Type} {check : Check α} {value : α}
    (run : (check.run store faults).result = .ok value) :
    store.AllAnswered (check.run store faults).calls faults := by
  rcases store.allAnswered_or_failing (check.run store faults).calls faults with
    answered | ⟨position, error, fails⟩
  · exact answered
  · have failed := (check.result_of_failing_call store faults fails).2
    cases run.symm.trans failed

/-- After a check that came to a value, only a later call can have failed. -/
theorem Check.failing_call_after {α : Type} {check : Check α} {value : α} {later : List Call}
    {position : Nat} {error : StoreError} (run : (check.run store faults).result = .ok value)
    (fails : (store.failures ((check.run store faults).calls ++ later) faults)[position]? =
      some (some error)) :
    ∃ made, position = (check.run store faults).calls.length + made ∧
      (store.failures later (check.run store faults).faults)[made]? = some (some error) := by
  rw [check.failures_calls_append] at fails
  by_cases early : position < (check.run store faults).calls.length
  · rw [List.getElem?_append_left (by simpa using early)] at fails
    have failed := (check.result_of_failing_call store faults fails).2
    cases run.symm.trans failed
  · obtain ⟨made, rfl⟩ := Nat.exists_eq_add_of_le (Nat.not_lt.mp early)
    rw [List.getElem?_append_right (by simp), Store.length_failures, Nat.add_sub_cancel_left]
      at fails
    exact ⟨made, rfl, fails⟩

theorem Check.allAnswered_append_iff {α : Type} (check : Check α) (store : Store) (faults : φ)
    (later : List Call) :
    store.AllAnswered ((check.run store faults).calls ++ later) faults ↔
      store.AllAnswered (check.run store faults).calls faults ∧
        store.AllAnswered later (check.run store faults).faults := by
  simp only [Store.AllAnswered, check.failures_calls_append, List.forall_mem_append]

theorem Store.allAnswered_of_commit {writes : List Write}
    (commit : (store.commit writes faults).result = .ok ()) :
    store.AllAnswered (store.commit writes faults).calls faults := by
  rcases store.allAnswered_or_failing (store.commit writes faults).calls faults with
    answered | ⟨position, error, fails⟩
  · exact answered
  · have failed := (store.commit_of_failing_call writes faults fails).2.2.1
    cases commit.symm.trans failed

end Answers

/-- The calls of an action keep to its trace. The report is on what it had checked by then. -/
structure Outcome.KeepsTo {φ : Type} [FaultSource φ] (outcome : Outcome φ)
    (report : Check.Report φ Plan) (action : Action) (store : Store) (faults : φ) : Prop where
  /-- Checking asks the questions of the action in order, and all of them if it comes to a plan. -/
  asked : report.calls <+: action.questions.map Call.ask
  planned : ∀ plan, report.result = .ok plan → report.calls = action.questions.map Call.ask
  /-- Applying begins with what checking asks, and ends there if checking fails. -/
  checked : report.calls <+: outcome.calls
  refused : ∀ failure, report.result = .error failure → outcome.calls = report.calls
  /-- Nothing is called but what the action says, in that order. -/
  made : outcome.calls.map Call.address <+: action.trace
  /-- An action succeeds exactly if all its calls were made and answered. -/
  finished : outcome.result = .ok () ↔
    outcome.calls.map Call.address = action.trace ∧ store.AllAnswered outcome.calls faults
  /-- Nothing is called after a call that failed. -/
  last : ∀ position error, (store.failures outcome.calls faults)[position]? = some (some error) →
    outcome.calls.length = position + 1

namespace Action

variable {φ : Type} [FaultSource φ]

theorem map_address_questions (action : Action) :
    (action.questions.map Call.ask).map Call.address =
      action.questions.map fun query => (Call.ask query).address := by
  rw [List.map_map]
  rfl

/-- An action calls what its check calls, and if that comes to a plan, what the commit calls. -/
theorem apply_calls_cases (context : Context) (action : Action) (store : Store) (faults : φ) :
    let report := (action.validate context).run store faults
    let outcome := action.apply context store faults
    (∃ failure, report.result = .error failure ∧ outcome.result ≠ .ok () ∧
      outcome.calls = report.calls) ∨
    ∃ plan, report.result = .ok plan ∧
      (outcome.result = .ok () ↔ (store.commit plan.writes report.faults).result = .ok ()) ∧
      outcome.calls = report.calls ++ (store.commit plan.writes report.faults).calls := by
  simp only [apply]
  cases ((action.validate context).run store faults).result with
  | error failure => exact .inl ⟨failure, rfl, by simp, rfl⟩
  | ok plan => exact .inr ⟨plan, rfl, mapError_eq_ok_iff, rfl⟩

/-- An action whose check fails has not come to the writes of its trace. -/
theorem keepsTo_of_refused {context : Context} {action : Action} {store : Store} {faults : φ}
    {outcome : Outcome φ} (result : outcome.result ≠ .ok ())
    (calls : outcome.calls = ((action.validate context).run store faults).calls) :
    outcome.KeepsTo ((action.validate context).run store faults) action store faults := by
  obtain ⟨asked, planned⟩ := (follows_validate context action).run store faults
  have questions := asked.map Call.address
  rw [map_address_questions, ← calls] at questions
  constructor
  case asked => exact asked
  case planned => exact planned
  case checked => exact ⟨[], by rw [calls, List.append_nil]⟩
  case refused => exact fun _ _ => calls
  case made => exact questions.trans (List.prefix_append _ _)
  case finished =>
    refine ⟨fun finished => absurd finished result, fun ⟨whole, _⟩ => ?_⟩
    have short := questions.length_le
    have long := List.length_pos_iff.mpr action.changes_ne_nil
    rw [whole, trace, List.length_append] at short
    omega
  case last =>
    intro position error fails
    rw [calls] at fails ⊢
    exact ((action.validate context).result_of_failing_call store faults fails).1

/-- Whatever the store holds and whatever calls fail, an action calls what its trace says, one after
the other and each once, and it stops only where it fails. -/
theorem apply_keepsTo (context : Context) (action : Action) (store : Store) (faults : φ) :
    (action.apply context store faults).KeepsTo ((action.validate context).run store faults) action
      store faults := by
  rcases apply_calls_cases context action store faults with
    ⟨failure, checked, result, calls⟩ | ⟨plan, checked, result, calls⟩
  · exact keepsTo_of_refused result calls
  obtain ⟨asked, planned⟩ := (follows_validate context action).run store faults
  obtain ⟨begun, whole⟩ :=
    store.commit_calls plan.writes ((action.validate context).run store faults).faults
  have settled := (settle_validate_eq_ok_iff.mp (Check.settle_eq_ok_of_run checked)).2
  have questions := map_address_questions action
  have changes : (plan.writes.map Call.perform).map Call.address = action.changes := by
    rw [List.map_map]
    exact address_writes settled
  have split := congrArg (List.map Call.address) calls
  rw [List.map_append, planned plan checked, questions] at split
  constructor
  case asked => exact asked
  case planned => exact planned
  case checked =>
    rw [calls]
    exact List.prefix_append _ _
  case refused => exact fun failure failed => nomatch checked.symm.trans failed
  case made =>
    rw [split, trace, ← changes]
    exact (List.prefix_append_right_inj _).mpr (begun.map Call.address)
  case finished =>
    rw [result, calls, (action.validate context).allAnswered_append_iff, ← calls, split, trace]
    constructor
    · intro committed
      refine ⟨?_, Check.allAnswered_of_ok checked, Store.allAnswered_of_commit committed⟩
      rw [whole committed, changes]
    · rintro ⟨-, -, answered⟩
      exact store.commit_of_allAnswered _ _ answered
  case last =>
    intro position error fails
    rw [calls] at fails ⊢
    obtain ⟨made, rfl, failed⟩ := Check.failing_call_after checked fails
    obtain ⟨less, performed, -⟩ := store.commit_of_failing_call plan.writes _ failed
    rw [List.length_append, performed, List.length_map, List.length_take]
    omega

end Action

end TokenLedger
