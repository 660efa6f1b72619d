import TokenLedger.Apply

/-!
Calls that are sent to a store one after the other.

Each of them is answered, or it fails because a fault strikes it or the store turns it down
(`Store.send`). Checking and writing send their calls in this way, and both end with the first that
fails (`Check.run_ask_cases`, `Store.send_perform_cases`).
-/

set_option autoImplicit false

namespace TokenLedger

variable {φ : Type} [FaultSource φ]

namespace Store

/-- Send one call. A fault may strike it, and the store may turn it down. -/
def send (store : Store) (call : Call) (faults : φ) : Except StoreError Store × φ :=
  match FaultSource.strike call faults with
  | (some error, faults) => (.error error, faults)
  | (none, faults) =>
      match call with
      | .ask query => ((store.ask query).map fun _ => store, faults)
      | .perform write => (store.perform write, faults)

/-- Send calls one after the other. Each of them meets an error or none. -/
def failures (store : Store) : List Call → φ → List (Option StoreError)
  | [], _ => []
  | call :: rest, faults =>
      match store.send call faults with
      | (.error error, faults) => some error :: store.failures rest faults
      | (.ok after, faults) => none :: after.failures rest faults

variable {store after : Store} {call : Call} {faults left : φ} {error : StoreError}

theorem failures_cons_of_error (sent : store.send call faults = (.error error, left))
    (rest : List Call) :
    store.failures (call :: rest) faults = some error :: store.failures rest left := by
  simp only [failures, sent]

theorem failures_cons_of_ok (sent : store.send call faults = (.ok after, left))
    (rest : List Call) :
    store.failures (call :: rest) faults = none :: after.failures rest left := by
  simp only [failures, sent]

@[simp] theorem length_failures (store : Store) (calls : List Call) (faults : φ) :
    (store.failures calls faults).length = calls.length := by
  induction calls generalizing store faults with
  | nil => rfl
  | cons call rest inductionHypothesis =>
      rcases sent : store.send call faults with ⟨error | after, left⟩
      · simp [failures_cons_of_error sent, inductionHypothesis]
      · simp [failures_cons_of_ok sent, inductionHypothesis]

/-- A write is made as it is sent. -/
theorem send_perform_cases (store : Store) (write : Write) (faults : φ) :
    ∃ left : φ,
      (∃ after, store.perform write = .ok after ∧
        store.send (.perform write) faults = (.ok after, left) ∧
        store.performWith write faults = ⟨.ok (), after, [.perform write], [.wrote write], left⟩) ∨
      ∃ error, store.send (.perform write) faults = (.error error, left) ∧
        store.performWith write faults =
          ⟨.error (.store error), store, [.perform write], [], left⟩ := by
  simp only [send, performWith]
  rcases FaultSource.strike (.perform write) faults with ⟨_ | error, left⟩
  · refine ⟨left, ?_⟩
    cases performed : store.perform write with
    | error error =>
        simp only [attempt_of_error performed]
        exact .inr ⟨error, rfl, rfl⟩
    | ok after =>
        simp only [attempt_of_ok performed]
        exact .inl ⟨after, rfl, rfl, rfl⟩
  · exact ⟨left, .inr ⟨error, rfl, rfl⟩⟩

end Store

/-- A query that fails ends the check, and one that is answered leaves the store as it was. -/
theorem Check.run_ask_cases {α : Type} (store : Store) (query : Query)
    (next : query.Answer → Check α) (faults : φ) :
    ∃ left : φ,
      (∃ answer, store.ask query = .ok answer ∧
        store.send (.ask query) faults = (.ok store, left) ∧
        (Check.ask query next).run store faults =
          let report := (next answer).run store left
          { report with calls := .ask query :: report.calls }) ∨
      ∃ error, store.send (.ask query) faults = (.error error, left) ∧
        (Check.ask query next).run store faults =
          ⟨.error (.store error), [.ask query], [], left⟩ := by
  simp only [Store.send, run]
  rcases FaultSource.strike (.ask query) faults with ⟨_ | error, left⟩
  · refine ⟨left, ?_⟩
    cases store.ask query with
    | error error => exact .inr ⟨error, rfl, rfl⟩
    | ok answer => exact .inl ⟨answer, rfl, rfl, rfl⟩
  · exact ⟨left, .inr ⟨error, rfl, rfl⟩⟩

namespace Check

variable {φ : Type} [FaultSource φ] {α β : Type} {store : Store} {faults left : φ}

section Sequencing

variable {condition : Bool} {reason : Reason} {next : Unit → Check β}

theorem run_ensure_bind_of_true (holds : condition = true) :
    (ensure condition reason >>= next).run store faults = (next ()).run store faults := by
  rw [holds]
  rfl

theorem run_ensure_bind_of_false (fails : condition = false) :
    (ensure condition reason >>= next).run store faults =
      ⟨.error (.ofReason reason), [], [], faults⟩ := by
  rw [fails]
  rfl

end Sequencing

section Asking

theorem ask_bind (question : Query) (next : question.Answer → Check α) (later : α → Check β) :
    Check.ask question next >>= later = .ask question fun answer => next answer >>= later :=
  rfl

theorem query_bind (question : Query) (next : question.Answer → Check β) :
    query question >>= next = .ask question next :=
  rfl

variable {question : Query} {next : question.Answer → Check β}

theorem run_query_bind_of_struck {error : StoreError}
    (struck : FaultSource.strike (.ask question) faults = (some error, left)) :
    (query question >>= next).run store faults =
      ⟨.error (.store error), [.ask question], [], left⟩ := by
  simp only [query_bind, run, struck]

theorem run_query_bind_of_answered {answer : question.Answer}
    (passed : FaultSource.strike (.ask question) faults = (none, left))
    (answered : store.ask question = .ok answer) :
    (query question >>= next).run store faults =
      let report := (next answer).run store left
      { report with calls := .ask question :: report.calls } := by
  simp only [query_bind, run, passed, answered]

end Asking

/-- A value made of the result at the end changes nothing on the way. -/
theorem run_bind_pure (check : Check α) (make : α → β) (store : Store) (faults : φ) :
    ((check >>= fun a => pure (make a)).run store faults).result =
        (check.run store faults).result.map make ∧
      ((check >>= fun a => pure (make a)).run store faults).calls =
        (check.run store faults).calls := by
  induction check generalizing faults with
  | done value => exact ⟨rfl, rfl⟩
  | fail failure => exact ⟨rfl, rfl⟩
  | note event later inductionHypothesis => exact inductionHypothesis faults
  | ask question later inductionHypothesis =>
      simp only [ask_bind, run]
      rcases FaultSource.strike (.ask question) faults with ⟨_ | error, left⟩
      · cases store.ask question with
        | error error => exact ⟨rfl, rfl⟩
        | ok answer =>
            obtain ⟨result, calls⟩ := inductionHypothesis answer left
            exact ⟨result, congrArg _ calls⟩
      · exact ⟨rfl, rfl⟩

end Check

/-- Checking leaves the store to the calls after it as it found it. -/
theorem Check.failures_calls_append {α : Type} (check : Check α) (store : Store) (faults : φ)
    (later : List Call) :
    store.failures ((check.run store faults).calls ++ later) faults =
      store.failures (check.run store faults).calls faults ++
        store.failures later (check.run store faults).faults := by
  induction check generalizing faults with
  | done value => rfl
  | fail failure => rfl
  | note event next inductionHypothesis => exact inductionHypothesis faults
  | ask query next inductionHypothesis =>
      obtain ⟨left, ⟨answer, -, sent, ran⟩ | ⟨error, sent, ran⟩⟩ :=
        run_ask_cases store query next faults
      · simp only [ran, List.cons_append, Store.failures_cons_of_ok sent, inductionHypothesis]
      · simp only [ran, List.cons_append, List.nil_append, Store.failures_cons_of_error sent]
        rfl

end TokenLedger
