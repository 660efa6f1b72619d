import TokenLedger.Check

/-!
Plans to open accounts, to hand them over, and to move balance between them.

Only a transfer changes balances. Both accounts are read before either is written, and
both new balances must be in range.
-/

set_option autoImplicit false

namespace TokenLedger

def NewAccount.plan (action : NewAccount) (time : Instant) (config : Config) : Check Plan := do
  Check.ensure (!action.name.isEmpty) .emptyAccountName
  let known : Bool ← Check.query (.existsAccount action.name)
  Check.ensure (!known) (.accountExists action.name)
  Check.ofExcept (config.check.mapError .config)
  let account : Account := {
    name := action.name
    creator := config.systemAccount
    createTime := time
    balance := config.initialBalance
    frozenBalance := .zero
    owner := action.owner
  }
  return .newAccount account

def UpdateOwner.plan (action : UpdateOwner) : Check Plan := do
  let known : Bool ← Check.query (.existsAccount action.name)
  Check.ensure known (.noAccount action.name)
  Check.ensure (!action.owner.isEmpty) .emptyOwner
  let stored : Account ← Check.query (.readAccount action.name)
  return .updateOwner { stored with owner := action.owner }

def TransferBalance.plan (action : TransferBalance) : Check Plan := do
  let sourceKnown : Bool ← Check.query (.existsAccount action.source)
  Check.ensure sourceKnown (.noAccount action.source)
  let targetKnown : Bool ← Check.query (.existsAccount action.target)
  Check.ensure targetKnown (.noAccount action.target)
  Check.ensure action.amount.isPositive .amountNotPositive
  Check.ensure (action.source ≠ action.target) (.transferToSelf action.source)
  let source : Account ← Check.query (.readAccount action.source)
  let target : Account ← Check.query (.readAccount action.target)
  Check.emit (.readAccounts source.name source.balance target.balance)
  Check.ensure (action.amount ≤ source.balance) (.insufficientBalance action.source)
  match source.balance.sub? action.amount, target.balance.add? action.amount with
  | some debited, some credited =>
      return .transferBalance { source with balance := debited } { target with balance := credited }
  | _, _ => .fail (.ofReason .balanceOverflow)

end TokenLedger
