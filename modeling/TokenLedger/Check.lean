import TokenLedger.Event
import TokenLedger.Store
import TokenLedger.Store.Fault

/-!
Checks: what is found out about an action before anything is written.

A check asks the store, notes events, and ends in a value or a failure. It is data, so it
cannot write, and what it asks is read off it. `Check.run` carries it out against a
store with a source of faults before it; the first failing call ends it.
-/

set_option autoImplicit false

namespace TokenLedger

inductive Check (α : Type) where
  | done (value : α)
  | fail (failure : Failure)
  | note (event : Event) (next : Check α)
  | ask (query : Query) (next : query.Answer → Check α)

namespace Check

variable {α β : Type}

def bind (check : Check α) (next : α → Check β) : Check β :=
  match check with
  | .done value => next value
  | .fail failure => .fail failure
  | .note event rest => .note event (rest.bind next)
  | .ask query rest => .ask query fun answer => (rest answer).bind next

instance : Monad Check where
  pure := .done
  bind := bind

theorem bind_done (check : Check α) : check.bind .done = check := by
  induction check with
  | done => rfl
  | fail => rfl
  | note event rest inductionHypothesis => simp [bind, inductionHypothesis]
  | ask query rest inductionHypothesis => simp [bind, inductionHypothesis]

theorem bind_assoc {γ : Type} (check : Check α) (next : α → Check β) (last : β → Check γ) :
    (check.bind next).bind last = check.bind fun value => (next value).bind last := by
  induction check with
  | done => rfl
  | fail => rfl
  | note event rest inductionHypothesis => simp [bind, inductionHypothesis]
  | ask query rest inductionHypothesis => simp [bind, inductionHypothesis]

instance : LawfulMonad Check := LawfulMonad.mk' Check
  bind_done
  (fun _ _ => rfl)
  bind_assoc

/-- The answer of the store. -/
def query (query : Query) : Check query.Answer := .ask query .done

def emit (event : Event) : Check Unit := .note event (.done ())

/-- What was found out without the store. -/
def ofExcept : Except Failure α → Check α
  | .ok value => .done value
  | .error failure => .fail failure

/-- Go on if the condition holds, and else reject for that reason. -/
def ensure (condition : Bool) (reason : Reason) : Check Unit :=
  ofExcept (TokenLedger.ensure condition reason)

/-- What a check came to, with everything that happened on the way. -/
structure Report (φ α : Type) where
  result : Except Failure α
  calls : List Call
  log : List Event
  faults : φ

/-- Carry out a check. A call that a fault strikes does not reach the store. -/
def run {φ : Type} [FaultSource φ] (store : Store) : Check α → φ → Report φ α
  | .done value, faults => ⟨.ok value, [], [], faults⟩
  | .fail failure, faults => ⟨.error failure, [], [], faults⟩
  | .note event next, faults =>
      let report := next.run store faults
      { report with log := event :: report.log }
  | .ask query next, faults =>
      match FaultSource.strike (.ask query) faults with
      | (some error, faults) => ⟨.error (.store error), [.ask query], [], faults⟩
      | (none, faults) =>
          match store.ask query with
          | .error error => ⟨.error (.store error), [.ask query], [], faults⟩
          | .ok answer =>
              let report := (next answer).run store faults
              { report with calls := .ask query :: report.calls }

end Check

end TokenLedger
