import TokenLedger.Json.Actions
import TokenLedger.Plan.Account
import TokenLedger.Plan.Domain
import TokenLedger.Plan.Group
import TokenLedger.Plan.Token
import TokenLedger.Store.Work

/-!
Applying actions.

An action is authorized, checked as a whole, and only then written. Checking and writing
are apart: `Action.validate` is a check and cannot write, and `Store.commit` carries out
the writes of a plan until one of them fails.
-/

set_option autoImplicit false

namespace TokenLedger

/-- What an action may consult besides the store. -/
structure Context where
  /-- Which scopes the action is authorized for. -/
  authorized : Scope → Bool
  /-- The time of the block that the action is in. -/
  time : Instant
  config : Config

/-- What applying writes came to, with everything that happened on the way. -/
structure Outcome (φ : Type) where
  result : Except Failure Unit
  store : Store
  calls : List Call
  log : List Event
  faults : φ

namespace Store

variable {φ : Type} [FaultSource φ]

/-- Perform one write, unless a fault strikes the call. The store is the one that the write left,
also where it failed. -/
def performWith (store : Store) (write : Write) (faults : φ) : Outcome φ :=
  match FaultSource.strike (.perform write) faults with
  | (some error, faults) => ⟨.error (.store error), store, [.perform write], [], faults⟩
  | (none, faults) =>
      let attempt := store.attempt write
      match attempt.result with
      | .error error => ⟨.error (.store error), attempt.store, [.perform write], [], faults⟩
      | .ok () => ⟨.ok (), attempt.store, [.perform write], [.wrote write], faults⟩

/-- Perform writes in order, until one fails. What was written before stays written. -/
def commit (store : Store) : List Write → φ → Outcome φ
  | [], faults => ⟨.ok (), store, [], [], faults⟩
  | write :: rest, faults =>
      let first := store.performWith write faults
      match first.result with
      | .error _ => first
      | .ok () =>
          let others := first.store.commit rest first.faults
          { others with
            calls := first.calls ++ others.calls
            log := first.log ++ others.log }

end Store

/-- Fail unless the scope is authorized. -/
def Context.require (context : Context) (scope : Scope) : Check Unit :=
  if context.authorized scope then return
  else do
    Check.emit (.unauthorized scope)
    Check.ensure false .unauthorized

namespace Action

/-- The plan of an action that is authorized. Only what the action needs is handed on. -/
def plan (context : Context) : Action → Check Plan
  | .newDomain action => action.plan context.time
  | .updateDomain action => action.plan
  | .issueTokens action => action.plan
  | .transferToken action => action.plan
  | .updateGroup action => action.plan
  | .newAccount action => action.plan context.time context.config
  | .updateOwner action => action.plan
  | .transferBalance action => action.plan

/-- Authorize an action and check it as a whole. -/
def validate (context : Context) (action : Action) : Check Plan := do
  context.require action.scope
  action.plan context

/-- The action as a rejection names it. -/
def submission (action : Action) : Submission := ⟨action.kind.name, action.encode⟩

variable {φ : Type} [FaultSource φ]

/-- Validate an action and carry out its plan. -/
def apply (context : Context) (action : Action) (store : Store) (faults : φ) : Outcome φ :=
  let opening := [Event.applying action.kind, .payload action.kind action.encode]
  let report := (action.validate context).run store faults
  match report.result with
  | .error failure =>
      { result := .error (failure.submittedAs action.submission)
        store
        calls := report.calls
        log := opening ++ report.log ++
          [.rejected context.config.rejectionLevel action.kind failure]
        faults := report.faults }
  | .ok plan =>
      let commit := store.commit plan.writes report.faults
      let closing : Event :=
        match commit.result with
        | .error failure => .commitFailed action.kind failure
        | .ok () => .applied action.kind
      { result := commit.result.mapError fun failure => failure.submittedAs action.submission
        store := commit.store
        calls := report.calls ++ commit.calls
        log := opening ++ report.log ++ .committing plan :: commit.log ++ [closing]
        faults := commit.faults }

end Action

end TokenLedger
