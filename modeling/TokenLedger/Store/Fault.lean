import TokenLedger.Failure
import TokenLedger.Store.Call

/-!
Failures of a store that are not its own: a connection lost, a lock poisoned.

A source of faults is told of every call before the call reaches the store, and may let
it fail there. It sees all calls in order and keeps a state, so nothing is assumed about
which calls fail.
-/

set_option autoImplicit false

namespace TokenLedger

class FaultSource (φ : Type) where
  /-- The error that a call meets instead of reaching the store, if any. -/
  strike : Call → φ → Option StoreError × φ

/-- The source that lets every call pass. -/
inductive NoFaults where
  | mk
  deriving DecidableEq, Repr

instance : FaultSource NoFaults := ⟨fun _ state => (none, state)⟩

/-- A fault that waits for calls of one kind, lets some pass and makes the next one fail. -/
structure Fault where
  kind : CallKind
  skip : Nat
  error : StoreError
  deriving DecidableEq, Repr

namespace Fault

/-- The oldest fault that waits for a call counts it, and is used up when it makes it fail. -/
def strike (call : Call) : List Fault → Option StoreError × List Fault
  | [] => (none, [])
  | fault :: rest =>
      if fault.kind = call.kind then
        match fault.skip with
        | 0 => (some fault.error, rest)
        | skip + 1 => (none, { fault with skip } :: rest)
      else
        let (error, rest) := strike call rest
        (error, fault :: rest)

instance : FaultSource (List Fault) := ⟨strike⟩

end Fault

@[simp] theorem strike_noFaults (call : Call) (state : NoFaults) :
    FaultSource.strike call state = (none, state) := rfl

@[simp] theorem strike_nil (call : Call) :
    FaultSource.strike call ([] : List Fault) = (none, []) := rfl

end TokenLedger
