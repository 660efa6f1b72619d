import TokenLedger.Proofs.Atomicity
import TokenLedger.Proofs.RoundTrip

/-!
What a rejection tells of the action.

Checking turns an action down for a reason and does not name it. Applying puts to that the kind of
the action and its text, in which the action is read again (`Action.apply_identifies`).
-/

set_option autoImplicit false

namespace TokenLedger

theorem Failure.submittedAs_eq_rejected_iff {failure : Failure} {submission : Submission}
    {rejection : Rejection} :
    failure.submittedAs submission = .rejected rejection ↔
      ∃ own : Rejection, failure = .rejected own ∧ rejection = ⟨own.reason, some submission⟩ := by
  cases failure <;> simp [submittedAs, eq_comm]

variable {φ : Type} [FaultSource φ]

/-- The rejection is of that action and no other, for the reason that checking it had found. -/
structure Rejection.Identifies (rejection : Rejection) (action : Action)
    (report : Check.Report φ Plan) : Prop where
  name : rejection.action = action.kind.name
  payload : ∃ payload, rejection.submission = some ⟨action.kind.name, payload⟩ ∧
    Action.decode? action.kind payload = some action
  /-- What checking alone fails with has the same message and leaves the action unnamed. -/
  own : ∃ own : Rejection, report.result = .error (.rejected own) ∧
    own.reason = rejection.reason ∧
    (Failure.rejected own).message = (Failure.rejected rejection).message ∧
    own.action = "" ∧ own.submission = none

/-- A commit fails by the store alone. -/
theorem Store.commit_ne_rejected (store : Store) (writes : List Write) (faults : φ)
    (rejection : Rejection) :
    (store.commit writes faults).result ≠ .error (.rejected rejection) := by
  obtain ⟨done, rest, -, makes, -⟩ := store.commit_makes writes faults
  by_cases finished : rest = []
  · simp [makes.completes finished]
  · obtain ⟨error, failed⟩ := makes.breaks finished
    simp [failed]

namespace Action

variable {context : Context} {action : Action} {store : Store} {faults : φ} {rejection : Rejection}

/-- Checking rejects an action without naming it. -/
theorem submission_of_validate_rejected
    (rejected : ((action.validate context).run store faults).result =
      .error (.rejected rejection)) :
    rejection.submission = none := by
  have fails := rejectsOnly_validate context action store
  rcases (action.validate context).result_run_cases store faults with same | ⟨error, failed⟩
  · rw [← same, rejected] at fails
    rcases fails with ⟨reason, rejects⟩ | ⟨error, misconfigured, -⟩
    · cases rejects
      rfl
    · cases misconfigured
  · cases rejected.symm.trans failed

/-- An action that is rejected was rejected when it was checked. -/
theorem validate_of_apply_rejected
    (rejected : (action.apply context store faults).result = .error (.rejected rejection)) :
    ((action.validate context).run store faults).result =
        .error (.rejected ⟨rejection.reason, none⟩) ∧
      rejection.submission = some action.submission := by
  unfold apply at rejected
  cases checked : ((action.validate context).run store faults).result with
  | error failure =>
      simp only [checked] at rejected
      obtain ⟨own, rfl, rfl⟩ := Failure.submittedAs_eq_rejected_iff.mp (Except.error.inj rejected)
      have unnamed := submission_of_validate_rejected checked
      exact ⟨by rw [← unnamed], rfl⟩
  | ok plan =>
      simp only [checked] at rejected
      cases committed : (store.commit plan.writes
          ((action.validate context).run store faults).faults).result with
      | ok done =>
          rw [committed] at rejected
          cases rejected
      | error failure =>
          rw [committed] at rejected
          obtain ⟨own, rfl, -⟩ := Failure.submittedAs_eq_rejected_iff.mp (Except.error.inj rejected)
          exact absurd committed (store.commit_ne_rejected plan.writes _ own)

/-- Whatever the store and its faults, a rejected action is identified by its rejection. -/
theorem apply_identifies
    (rejected : (action.apply context store faults).result = .error (.rejected rejection)) :
    rejection.Identifies action ((action.validate context).run store faults) := by
  obtain ⟨checked, submitted⟩ := validate_of_apply_rejected rejected
  constructor
  case name => simp [Rejection.action, submitted, submission]
  case payload => exact ⟨action.encode, submitted, action.decode?_encode⟩
  case own => exact ⟨⟨rejection.reason, none⟩, checked, rfl, rfl, rfl, rfl⟩

theorem apply_identifies_unknown_account :
    let noon : Instant := ⟨⟨2018, 5, 1, by decide⟩, 12, 0, 0, 0⟩
    let context : Context := ⟨fun _ => true, noon, .standard⟩
    let action : Action := .updateOwner ⟨⟨"a\"b"⟩, []⟩
    let faults : List Fault := [⟨.readAccount, 0, .storage "lost"⟩]
    let rejection : Rejection := ⟨.noAccount ⟨"a\"b"⟩, some action.submission⟩
    (action.apply context .empty faults).result = .error (.rejected rejection) ∧
      rejection.Identifies action ((action.validate context).run .empty faults) := by
  intro noon context action faults rejection
  have rejected : (action.apply context .empty faults).result = .error (.rejected rejection) := rfl
  exact ⟨rejected, apply_identifies rejected⟩

end Action

end TokenLedger
